import NodeLink.Document.Basic
import NodeLink.Json.Value
import NodeLink.Json.Decode

/-! # Documents as JSON

A document is an object of its name, its attributes and its two lists of declarations.
Attributes list the keys that were written; a declaration without a bracket list has `null`
for them.  In a mixed list each declaration carries its kind, as a field `kind` or, in list
form, as the first item; such a declaration is read whole before its fields are decoded. -/

namespace NodeLink

open NodeLink.Source (Location)
open NodeLink.Json (Decoder Member Shape Mode Problem Raw RawText ListEnd)

/-! ### Writing -/

/-- A location as an object. -/
def Source.Location.toJson (location : Location) : Json :=
  .object [("line", .nat location.line), ("column", .nat location.column)]

/-- The keys of an attribute list that were written. -/
def Attributes.toJson (attributes : Attributes) : Json :=
  .object <|
    Json.field? "bundle" (attributes.bundle.map Json.bool) ++
    Json.field? "color" (attributes.color.map Json.text) ++
    Json.field? "label" (attributes.label.map Json.text) ++
    Json.field? "line_width" (attributes.lineWidth.map Json.text) ++
    Json.field? "font" (attributes.font.map Json.text) ++
    Json.field? "font_size" (attributes.fontSize.map Json.text)

/-- The fields of a node declaration. -/
def NodeDeclaration.jsonFields (node : NodeDeclaration) : List (String × Json) :=
  [("identifier", .text node.identifier), ("location", node.location.toJson),
   ("attributes", Json.option Attributes.toJson node.attributes)]

/-- The fields of an edge declaration. -/
def EdgeDeclaration.jsonFields (edge : EdgeDeclaration) : List (String × Json) :=
  [("tail", .text edge.tail), ("tail_location", edge.tailLocation.toJson),
   ("head", .text edge.head), ("head_location", edge.headLocation.toJson),
   ("directed", .bool edge.directed),
   ("attributes", Json.option Attributes.toJson edge.attributes)]

/-- A declaration with its kind. -/
def Declaration.toJson : Declaration → Json
  | .node declaration => .object (("kind", .text "node") :: declaration.jsonFields)
  | .edge declaration => .object (("kind", .text "edge") :: declaration.jsonFields)

/-- A document as an object. -/
def Document.toJson (document : Document) : Json :=
  .object
    [("graph_name", .text document.graphName),
     ("graph_attributes", document.graphAttributes.toJson),
     ("node_declarations",
       .list (document.nodeDeclarations.map fun node => .object node.jsonFields)),
     ("edge_declarations",
       .list (document.edgeDeclarations.map fun edge => .object edge.jsonFields))]

/-! ### Reading -/

/-- A location has both its numbers. -/
def locationShape : Shape Location where
  start := {}
  members :=
    [.of ["line"] true Decoder.nat32 fun line location => { location with line },
     .of ["column"] true Decoder.nat32 fun column location => { location with column }]
  shortList := false

/-- Every attribute may be missing or `null`. -/
def attributesShape : Shape Attributes where
  start := {}
  members :=
    [.of ["bundle"] false (Decoder.nullable Decoder.bool) fun bundle a => { a with bundle },
     .of ["color"] false (Decoder.nullable Decoder.string) fun color a => { a with color },
     .of ["label"] false (Decoder.nullable Decoder.string) fun label a => { a with label },
     .of ["line_width"] false (Decoder.nullable Decoder.string) fun lineWidth a =>
       { a with lineWidth },
     .of ["font"] false (Decoder.nullable Decoder.string) fun font a => { a with font },
     .of ["font_size"] false (Decoder.nullable Decoder.string) fun fontSize a =>
       { a with fontSize }]
  shortList := false

/-- The attributes of a declaration, which may be missing or `null`. -/
def attributesMember {σ : Type} (mode : Mode) (set : Option Attributes → σ → σ) : Member σ :=
  .of ["attributes"] false (Decoder.nullable (attributesShape.decode mode)) set

/-- A node declaration has an identifier and a location. -/
def nodeShape (mode : Mode) : Shape NodeDeclaration where
  start := ⟨"", {}, none⟩
  members :=
    [.of ["identifier"] true Decoder.string fun identifier node => { node with identifier },
     .of ["location"] true (locationShape.decode mode) fun location node =>
       { node with location },
     attributesMember mode fun attributes node => { node with attributes }]
  shortList := false

/-- An edge declaration has both its ends, their locations and a direction. -/
def edgeShape (mode : Mode) : Shape EdgeDeclaration where
  start := ⟨"", {}, "", {}, false, none⟩
  members :=
    [.of ["tail"] true Decoder.string fun tail edge => { edge with tail },
     .of ["tail_location"] true (locationShape.decode mode) fun tailLocation edge =>
       { edge with tailLocation },
     .of ["head"] true Decoder.string fun head edge => { edge with head },
     .of ["head_location"] true (locationShape.decode mode) fun headLocation edge =>
       { edge with headLocation },
     .of ["directed"] true Decoder.bool fun directed edge => { edge with directed },
     attributesMember mode fun attributes edge => { edge with attributes }]
  shortList := false

/-- A document has all its four fields. -/
def documentShape : Shape Document where
  start := {}
  members :=
    [.of ["graph_name"] true Decoder.string fun graphName d => { d with graphName },
     .of ["graph_attributes"] true (attributesShape.decode .streamed) fun graphAttributes d =>
       { d with graphAttributes },
     .of ["node_declarations"] true (Decoder.listOf ((nodeShape .streamed).decode .streamed))
       fun nodeDeclarations d => { d with nodeDeclarations },
     .of ["edge_declarations"] true (Decoder.listOf ((edgeShape .streamed).decode .streamed))
       fun edgeDeclarations d => { d with edgeDeclarations }]
  shortList := false

/-- The document that a JSON text holds. -/
def Document.ofJson (text : String) : Except Problem Document :=
  Json.decodeText (documentShape.decode .streamed) text

/-- The two kinds of declaration. -/
inductive DeclarationKind where
  | node
  | edge
  deriving DecidableEq, Repr, Inhabited

/-- The name of a kind. -/
def declarationKind : Decoder DeclarationKind := fun raw => do
  match ← Decoder.string raw with
  | "node" => return .node
  | "edge" => return .edge
  | _ => .error .mismatch

/-- A declaration of a kind, from its fields. -/
def DeclarationKind.decode : DeclarationKind → Decoder Declaration
  | node => fun raw => ((nodeShape .whole).decode .whole raw).map .node
  | edge => fun raw => ((edgeShape .whole).decode .whole raw).map .edge

/-- How many containers may stand inside each other in a list of declarations. -/
def nestingLimit : Nat := 127

/-- Reads the fields of a declaration whole: its kind, decoded where it stands, and the other
fields as they are. -/
def readTagged (depth : Nat) (kind : Option DeclarationKind) :
    List (RawText × Raw) → Except Problem (Option DeclarationKind × List (RawText × Raw))
  | [] => .ok (kind, [])
  | (name, value) :: rest => do
    if (← name.content) = "kind" then
      if kind.isSome then .error .mismatch
      else readTagged depth (some (← declarationKind value)) rest
    else
      Json.readWhole depth value
      let (kind, fields) ← readTagged depth kind rest
      return (kind, (name, value) :: fields)

/-- A declaration with its kind, inside so many containers as leave room for `depth` more. -/
def taggedDeclaration (depth : Nat) : Decoder Declaration
  | .object fields fault => do
    if depth = 0 then .error .malformed
    else
      let (kind, fields) ← readTagged (depth - 1) none fields
      match fault, kind with
      | some problem, _ => .error problem
      | none, some kind => kind.decode (.object fields none)
      | none, none => .error .mismatch
  | .list items finish => do
    if depth = 0 then .error .malformed
    else
      match items with
      | [] => do
        Json.endOfList finish
        .error .mismatch
      | first :: items =>
        let kind ← declarationKind first
        for item in items do
          Json.readWhole (depth - 1) item
        Json.endOfList finish
        kind.decode (.list items .closed)
  | raw => .error raw.refusal

/-- The declarations that a JSON text lists. -/
def declarationsOfJson (text : String) : Except Problem (List Declaration) :=
  Json.decodeText (Decoder.listOf (taggedDeclaration (nestingLimit - 1))) text

end NodeLink
