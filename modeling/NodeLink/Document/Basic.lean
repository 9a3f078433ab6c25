import NodeLink.Source.Position

/-! # Documents

What a diagram source says: a graph name with attributes, node declarations and edge
declarations, each in the order of the source.  An attribute list is folded key by key, so
the last value of a key counts (`Attributes.ofPairs`); string values lose their quotes
(`unquote`). -/

namespace NodeLink

open NodeLink.Source (Location)

/-- One entry of an attribute list; string values stand without their quotes. -/
inductive Attribute where
  | bundle
  | color (value : String)
  | label (value : String)
  | lineWidth (value : String)
  | font (value : String)
  | fontSize (value : String)
  deriving DecidableEq, Repr, Inhabited

/-- An attribute list after folding: the value of each key that was written. -/
structure Attributes where
  bundle : Option Bool := none
  color : Option String := none
  label : Option String := none
  lineWidth : Option String := none
  font : Option String := none
  fontSize : Option String := none
  deriving DecidableEq, Repr, Inhabited

/-- Takes one more entry, which replaces an earlier one of its key. -/
def Attributes.apply (attributes : Attributes) : Attribute → Attributes
  | .bundle => { attributes with bundle := some true }
  | .color value => { attributes with color := some value }
  | .label value => { attributes with label := some value }
  | .lineWidth value => { attributes with lineWidth := some value }
  | .font value => { attributes with font := some value }
  | .fontSize value => { attributes with fontSize := some value }

/-- The fold of a list of entries, in order. -/
def Attributes.ofPairs (pairs : List Attribute) : Attributes :=
  pairs.foldl Attributes.apply {}

/-- Whether no key was written. -/
def Attributes.isEmpty (attributes : Attributes) : Bool :=
  attributes = {}

/-- A node declaration; without a bracket list it has no attributes. -/
structure NodeDeclaration where
  identifier : String
  location : Location
  attributes : Option Attributes
  deriving DecidableEq, Repr, Inhabited

/-- An edge declaration, `directed` when it was written with an arrow. -/
structure EdgeDeclaration where
  tail : String
  tailLocation : Location
  head : String
  headLocation : Location
  directed : Bool
  attributes : Option Attributes
  deriving DecidableEq, Repr, Inhabited

/-- A declaration of the graph body. -/
inductive Declaration where
  | node (declaration : NodeDeclaration)
  | edge (declaration : EdgeDeclaration)
  deriving DecidableEq, Repr, Inhabited

/-- A whole document. -/
structure Document where
  graphName : String := ""
  graphAttributes : Attributes := {}
  nodeDeclarations : List NodeDeclaration := []
  edgeDeclarations : List EdgeDeclaration := []
  deriving DecidableEq, Repr, Inhabited

/-- The node declaration that a declaration is, if it is one. -/
def Declaration.node? : Declaration → Option NodeDeclaration
  | .node declaration => some declaration
  | .edge _ => none

/-- The edge declaration that a declaration is, if it is one. -/
def Declaration.edge? : Declaration → Option EdgeDeclaration
  | .node _ => none
  | .edge declaration => some declaration

/-- Appends a declaration to the list of its kind. -/
def Document.push (document : Document) : Declaration → Document
  | .node declaration =>
    { document with nodeDeclarations := document.nodeDeclarations ++ [declaration] }
  | .edge declaration =>
    { document with edgeDeclarations := document.edgeDeclarations ++ [declaration] }

/-- Pushes declarations in order. -/
def Document.append (document : Document) (declarations : List Declaration) : Document :=
  declarations.foldl Document.push document

/-- Nodes and edges each go to their own list, in order. -/
theorem Document.append_eq (document : Document) (declarations : List Declaration) :
    document.append declarations =
      { document with
        nodeDeclarations :=
          document.nodeDeclarations ++ declarations.filterMap Declaration.node?
        edgeDeclarations :=
          document.edgeDeclarations ++ declarations.filterMap Declaration.edge? } := by
  induction declarations generalizing document with
  | nil => simp [append]
  | cons declaration declarations ih =>
    have hstep : document.append (declaration :: declarations) =
        (document.push declaration).append declarations := rfl
    rw [hstep, ih]
    cases declaration <;> simp [push, List.filterMap_cons, Declaration.node?, Declaration.edge?]

/-- Whether the graph's own attributes ask for bundled edges. -/
def Document.bundle (document : Document) : Bool :=
  document.graphAttributes.bundle.getD false

/-- The text without one pair of surrounding double quotes, if it has such a pair. -/
def unquote (text : String) : String :=
  match text.toList with
  | '"' :: rest =>
    if rest.getLast? = some '"' then String.ofList rest.dropLast else text
  | _ => text

end NodeLink
