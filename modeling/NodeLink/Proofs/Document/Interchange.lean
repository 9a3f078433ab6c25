import NodeLink.Document.Codec
import NodeLink.Proofs.Json.Reading

/-! # Documents survive their JSON text

A document is decoded from its own text as it was, on one line or indented, and so is a list
of declarations that carry their kinds.  What an attribute list does not set is left out of
its text, and a declaration without a list has `null`: no list, an empty list and a list with
some keys stay three different things.

`Fills` says that the fields of an object are those of a record type in order, some of them
left out; such an object decodes to the record they fill (`Shape.decode_of_fills`).  All four
record types of a document are instances.

* `Fits`: a location within thirty-two bits, which is what a text may hold.
* `decode_attributes`, `decode_node`, `decode_edge`, `decode_document`: the records.
* `json_interchange`: documents and lists of declarations. -/

namespace NodeLink

open NodeLink.Source (Location)
open NodeLink.Json (Decoder Member Shape Mode Raw RawText readText)

namespace Json

/-! ### Objects with their fields in order -/

section Records

variable {σ : Type}

/-- The fields of an object are read by members in order, and members that may be missing are
passed over; what was read before turns into the result. -/
inductive Fills : List (Member σ) → σ → List (String × Json) → σ → Prop
  | nil {record : σ} : Fills [] record [] record
  | present {member : Member σ} {members : List (Member σ)} {name : String} {value : Json}
      {record next result : σ} {fields : List (String × Json)} (hname : name ∈ member.names)
      (hread : member.read value.toRaw record = .ok next)
      (hrest : Fills members next fields result) :
      Fills (member :: members) record ((name, value) :: fields) result
  | absent {member : Member σ} {members : List (Member σ)} {record result : σ}
      {fields : List (String × Json)} (hrequired : member.required = false)
      (hrest : Fills members record fields result) :
      Fills (member :: members) record fields result

/-- No two members of a record type share a name. -/
def Shape.Apart (shape : Shape σ) : Prop :=
  shape.members.Pairwise fun a b => ∀ name ∈ a.names, name ∉ b.names

theorem Shape.Apart.findIdx?_eq {shape : Shape σ} (hapart : shape.Apart)
    {before rest : List (Member σ)} {member : Member σ} {name : String}
    (hmembers : shape.members = before ++ member :: rest) (hname : name ∈ member.names) :
    shape.members.findIdx? (fun m => m.names.contains name) = some before.length := by
  rw [Shape.Apart, hmembers, List.pairwise_append] at hapart
  have hbefore : ∀ m ∈ before, m.names.contains name = false := by
    intro m hm
    simpa using fun h => hapart.2.2 m hm member (by simp) name h hname
  rw [hmembers, List.findIdx?_append, List.findIdx?_eq_none_iff.mpr hbefore]
  simp [List.findIdx?_cons, hname]

/-- Reading goes through the members in order and has seen every required one at the end. -/
theorem Shape.readObject_of_fills {shape : Shape σ} (hapart : shape.Apart)
    {rest : List (Member σ)} {record result : σ} {fields : List (String × Json)}
    (h : Fills rest record fields result) :
    ∀ (before : List (Member σ)) (seen : List Nat), shape.members = before ++ rest →
      (∀ i ∈ seen, i < before.length) →
      ∃ seen', shape.readObject record seen
          (fields.map fun field => (readText field.1, field.2.toRaw)) = .ok (result, seen') ∧
        (∀ i ∈ seen, i ∈ seen') ∧
        ∀ i member, rest[i]? = some member → member.required = true →
          before.length + i ∈ seen' := by
  induction h with
  | nil =>
    intro before seen _ _
    exact ⟨seen, rfl, fun _ h => h, by simp⟩
  | @present member members name value record next result fields hname hread hrest ih =>
    intro before seen hmembers hseen
    obtain ⟨seen', hfields, hkept, hrequired⟩ := ih (before ++ [member])
      (before.length :: seen) (by simp [hmembers])
      (by
        simp only [List.mem_cons, List.length_append, List.length_singleton]
        rintro i (rfl | hi)
        · omega
        · exact Nat.lt_succ_of_lt (hseen i hi))
    have hfresh : before.length ∉ seen := fun h => absurd (hseen _ h) (Nat.lt_irrefl _)
    have hmember : shape.members[before.length]? = some member := by simp [hmembers]
    refine ⟨seen', ?_, fun i hi => hkept i (List.mem_cons_of_mem _ hi), ?_⟩
    · simp only [List.map_cons, Shape.readObject, content_readText, bind, Except.bind,
        hapart.findIdx?_eq hmembers hname, hmember, hread]
      simpa [hfresh] using hfields
    · intro i m hi hm
      cases i with
      | zero => exact hkept _ (by simp)
      | succ i =>
        have := hrequired i m (by simpa using hi) hm
        simpa [Nat.add_assoc, Nat.add_comm 1] using this
  | @absent member members record result fields hrequired hrest ih =>
    intro before seen hmembers hseen
    obtain ⟨seen', hfields, hkept, hlater⟩ := ih (before ++ [member]) seen
      (by simp [hmembers])
      (fun i hi => by
        have := hseen i hi
        simp only [List.length_append, List.length_singleton]
        omega)
    refine ⟨seen', hfields, hkept, ?_⟩
    intro i m hi hm
    cases i with
    | zero =>
      obtain rfl : member = m := by simpa using hi
      rw [hrequired] at hm
      cases hm
    | succ i =>
      have := hlater i m (by simpa using hi) hm
      simpa [Nat.add_assoc, Nat.add_comm 1] using this

/-- An object whose fields fill a record type decodes to the record. -/
theorem Shape.decode_of_fills {shape : Shape σ} (hapart : shape.Apart) {result : σ}
    {fields : List (String × Json)} (h : Fills shape.members shape.start fields result)
    (mode : Mode) : shape.decode mode (object fields).toRaw = .ok result := by
  obtain ⟨seen, hfields, -, hrequired⟩ := readObject_of_fills hapart h [] [] rfl (by simp)
  have hcomplete : shape.complete seen = true := by
    rw [Shape.complete, List.all_eq_true]
    rintro ⟨member, i⟩ hmem
    have hi := List.mk_mem_zipIdx_iff_getElem?.mp hmem
    cases hm : member.required with
    | false => simp [hm]
    | true => simpa [hm] using hrequired i member hi hm
  rw [toRaw, Shape.decode]
  simp [hfields, bind, Except.bind, hcomplete, pure, Except.pure]

end Records

end Json

/-! ### Members -/

theorem Json.Fills.required {σ α : Type} {name : String} {decode : Decoder α} {set : α → σ → σ}
    {members : List (Member σ)} {value : Json} {a : α} {record result : σ}
    {fields : List (String × Json)} (hread : decode value.toRaw = .ok a)
    (hrest : Fills members (set a record) fields result) :
    Fills (.of [name] true decode set :: members) record ((name, value) :: fields) result :=
  .present (by simp [Member.of]) (by simp [Member.of, hread, Except.map]) hrest

theorem Json.Fills.optional {σ α : Type} {name : String} {decode : Decoder α}
    {set : Option α → σ → σ} {members : List (Member σ)} {encode : α → Json} {value : Option α}
    {record result : σ} {fields : List (String × Json)} (hnone : set none record = record)
    (hread : ∀ a, Decoder.nullable decode (encode a).toRaw = .ok (some a))
    (hrest : Fills members (set value record) fields result) :
    Fills (.of [name] false (Decoder.nullable decode) set :: members) record
      (Json.field? name (value.map encode) ++ fields) result := by
  cases value with
  | none =>
    rw [hnone] at hrest
    exact .absent rfl hrest
  | some a => exact .present (by simp [Member.of]) (by simp [Member.of, hread, Except.map]) hrest

/-! ### The records of a document -/

theorem decode_string (s : String) : Decoder.string (Json.text s).toRaw = .ok s := by
  simp [Json.toRaw, Decoder.string]

theorem decode_bool (value : Bool) : Decoder.bool (Json.bool value).toRaw = .ok value := by
  simp [Json.toRaw, Decoder.bool]

theorem decode_natBelow {bound n : Nat} (h : n < bound) (hbound : n ≤ Json.maxSignificand) :
    Decoder.natBelow bound (Json.nat n).toRaw = .ok n := by
  simp [Json.nat, Json.toRaw, Decoder.natBelow, Json.numberValue,
    Json.value?_intLiteral_nat hbound, bind, Except.bind, h, pure, Except.pure]

/-- A location whose numbers have at most thirty-two bits. -/
def Source.Location.Fits (location : Location) : Prop :=
  location.line < Nat.pow 2 32 ∧ location.column < Nat.pow 2 32

instance (location : Location) : Decidable location.Fits :=
  inferInstanceAs (Decidable (_ ∧ _))

theorem decode_location {location : Location} (h : location.Fits) (mode : Mode) :
    locationShape.decode mode location.toJson.toRaw = .ok location := by
  have hwide : Nat.pow 2 32 ≤ Json.maxSignificand := by decide
  refine Shape.decode_of_fills ?_ ?_ mode
  · simp [Shape.Apart, locationShape, Member.of]
  · exact .required (decode_natBelow h.1 (h.1.le.trans hwide))
      (.required (decode_natBelow h.2 (h.2.le.trans hwide)) .nil)

theorem decode_attributes (attributes : Attributes) (mode : Mode) :
    attributesShape.decode mode attributes.toJson.toRaw = .ok attributes := by
  have hbool : ∀ value, Decoder.nullable Decoder.bool (Json.bool value).toRaw = .ok (some value) :=
    fun value => by simp [Json.toRaw, Decoder.nullable, Decoder.bool, Except.map]
  have htext : ∀ s, Decoder.nullable Decoder.string (Json.text s).toRaw = .ok (some s) :=
    fun s => by simp [Json.toRaw, Decoder.nullable, Decoder.string, Except.map]
  have hlast : Json.field? "font_size" (attributes.fontSize.map Json.text) =
      Json.field? "font_size" (attributes.fontSize.map Json.text) ++ [] :=
    (List.append_nil _).symm
  rw [Attributes.toJson, hlast]
  simp only [List.append_assoc]
  refine Shape.decode_of_fills ?_ ?_ mode
  · simp [Shape.Apart, attributesShape, Member.of]
  · exact .optional rfl hbool (.optional rfl htext (.optional rfl htext
      (.optional rfl htext (.optional rfl htext (.optional rfl htext .nil)))))

/-- No attribute list is `null`, an empty one is not. -/
theorem decode_optionalAttributes (attributes : Option Attributes) (mode : Mode) :
    Decoder.nullable (attributesShape.decode mode)
      (Json.option Attributes.toJson attributes).toRaw = .ok attributes := by
  cases attributes with
  | none => simp [Json.option, Json.toRaw, Decoder.nullable]
  | some attributes =>
    have hread := decode_attributes attributes mode
    simp only [Json.option, Attributes.toJson, Json.toRaw, Decoder.nullable] at hread ⊢
    rw [hread]
    rfl

theorem fills_attributes {σ : Type} {attributes : Option Attributes} {mode : Mode}
    {set : Option Attributes → σ → σ} {record : σ} :
    Json.Fills [attributesMember mode set] record
      [("attributes", Json.option Attributes.toJson attributes)] (set attributes record) :=
  .present (by simp [attributesMember, Member.of])
    (by simp [attributesMember, Member.of, decode_optionalAttributes, Except.map]) .nil

theorem decode_node {node : NodeDeclaration} (h : node.location.Fits) (mode : Mode) :
    (nodeShape mode).decode mode (Json.object node.jsonFields).toRaw = .ok node := by
  refine Shape.decode_of_fills ?_ ?_ mode
  · simp [Shape.Apart, nodeShape, Member.of, attributesMember]
  · exact .required (decode_string node.identifier)
      (.required (decode_location h mode) fills_attributes)

theorem decode_edge {edge : EdgeDeclaration} (htail : edge.tailLocation.Fits)
    (hhead : edge.headLocation.Fits) (mode : Mode) :
    (edgeShape mode).decode mode (Json.object edge.jsonFields).toRaw = .ok edge := by
  refine Shape.decode_of_fills ?_ ?_ mode
  · simp [Shape.Apart, edgeShape, Member.of, attributesMember]
  · exact .required (decode_string edge.tail) (.required (decode_location htail mode)
      (.required (decode_string edge.head) (.required (decode_location hhead mode)
        (.required (decode_bool edge.directed) fills_attributes))))

theorem decode_listOf {α : Type} {decode : Decoder α} {encode : α → Json} {xs : List α}
    (h : ∀ x ∈ xs, decode (encode x).toRaw = .ok x) :
    Decoder.listOf decode (Json.list (xs.map encode)).toRaw = .ok xs := by
  have hitems : ((xs.map encode).map Json.toRaw).mapM decode = .ok xs := by
    induction xs with
    | nil => rfl
    | cons x xs ih =>
      rw [List.forall_mem_cons] at h
      simp only [List.map_cons, List.mapM_cons, h.1, ih h.2, bind, Except.bind, pure,
        Except.pure]
  rw [Json.toRaw, Decoder.listOf, hitems]
  rfl

/-- Whether every location of a document has at most thirty-two bits. -/
structure Document.LocationsFit (document : Document) : Prop where
  nodes : ∀ node ∈ document.nodeDeclarations, node.location.Fits
  tails : ∀ edge ∈ document.edgeDeclarations, edge.tailLocation.Fits
  heads : ∀ edge ∈ document.edgeDeclarations, edge.headLocation.Fits

theorem decode_document {document : Document} (h : document.LocationsFit) :
    documentShape.decode .streamed document.toJson.toRaw = .ok document := by
  refine Shape.decode_of_fills ?_ ?_ .streamed
  · simp [Shape.Apart, documentShape, Member.of]
  · exact .required (decode_string document.graphName)
      (.required (decode_attributes document.graphAttributes .streamed)
        (.required (decode_listOf fun node hnode => decode_node (h.nodes node hnode) .streamed)
          (.required (decode_listOf fun edge hedge =>
            decode_edge (h.tails edge hedge) (h.heads edge hedge) .streamed) .nil)))

/-! ### Depth and size of the texts -/

theorem Source.Location.Fits.toJson {location : Location} (h : location.Fits) {depth : Nat} :
    Json.Fits (depth + 1) location.toJson := by
  have hwide : ((Nat.pow 2 32 : Nat) : Int) ≤ Json.maxSignificand := by decide
  have hnat : ∀ {n : Nat}, n < Nat.pow 2 32 → Json.Fits depth (Json.nat n) := fun {n} hn =>
    .int (by have : -(Nat.pow 2 63 : Int) ≤ 0 := by decide
             omega) (by omega)
  refine .object ?_
  simp only [List.forall_mem_cons]
  exact ⟨hnat h.1, hnat h.2, by simp⟩

theorem fits_attributes (attributes : Attributes) {depth : Nat} :
    Json.Fits (depth + 1) attributes.toJson := by
  have hfield : ∀ (name : String) {α : Type} (encode : α → Json) (value : Option α),
      (∀ a, Json.Fits depth (encode a)) →
      ∀ field ∈ Json.field? name (value.map encode), Json.Fits depth field.2 := by
    intro name α encode value hencode field hfield
    cases value with
    | none => cases hfield
    | some a =>
      obtain rfl : field = (name, encode a) := by simpa [Json.field?] using hfield
      exact hencode a
  refine .object ?_
  simp only [List.forall_mem_append]
  exact ⟨⟨⟨⟨⟨hfield _ _ _ .bool, hfield _ _ _ .text⟩, hfield _ _ _ .text⟩,
    hfield _ _ _ .text⟩, hfield _ _ _ .text⟩, hfield _ _ _ .text⟩

theorem fits_optionalAttributes (attributes : Option Attributes) {depth : Nat} :
    Json.Fits (depth + 1) (Json.option Attributes.toJson attributes) := by
  cases attributes with
  | none => exact .null
  | some attributes => exact fits_attributes attributes

theorem fits_nodeFields {node : NodeDeclaration} (h : node.location.Fits) {depth : Nat} :
    ∀ field ∈ node.jsonFields, Json.Fits (depth + 1) field.2 := by
  simp only [NodeDeclaration.jsonFields, List.forall_mem_cons]
  exact ⟨.text _, h.toJson, fits_optionalAttributes _, by simp⟩

theorem fits_edgeFields {edge : EdgeDeclaration} (htail : edge.tailLocation.Fits)
    (hhead : edge.headLocation.Fits) {depth : Nat} :
    ∀ field ∈ edge.jsonFields, Json.Fits (depth + 1) field.2 := by
  simp only [EdgeDeclaration.jsonFields, List.forall_mem_cons]
  exact ⟨.text _, htail.toJson, .text _, hhead.toJson, .bool _, fits_optionalAttributes _,
    by simp⟩

theorem Document.LocationsFit.toJson {document : Document} (h : document.LocationsFit) :
    Json.Fits 4 document.toJson := by
  have hnodes : Json.Fits 3
      (.list (document.nodeDeclarations.map fun node => .object node.jsonFields)) :=
    .list (List.forall_mem_map.mpr fun node hnode => .object (fits_nodeFields (h.nodes node hnode)))
  have hedges : Json.Fits 3
      (.list (document.edgeDeclarations.map fun edge => .object edge.jsonFields)) :=
    .list (List.forall_mem_map.mpr fun edge hedge =>
      .object (fits_edgeFields (h.tails edge hedge) (h.heads edge hedge)))
  refine .object ?_
  simp only [List.forall_mem_cons]
  exact ⟨.text _, fits_attributes _, hnodes, hedges, by simp⟩

/-! ### Declarations with their kinds -/

/-- A declaration whose locations have at most thirty-two bits. -/
def Declaration.LocationsFit : Declaration → Prop
  | .node declaration => declaration.location.Fits
  | .edge declaration => declaration.tailLocation.Fits ∧ declaration.headLocation.Fits

instance : DecidablePred Declaration.LocationsFit
  | .node declaration => inferInstanceAs (Decidable declaration.location.Fits)
  | .edge _ => inferInstanceAs (Decidable (_ ∧ _))

theorem readTagged_fields {depth : Nat} (kind : Option DeclarationKind) :
    ∀ {fields : List (String × Json)},
      (∀ field ∈ fields, field.1 ≠ "kind") → (∀ field ∈ fields, Json.Fits depth field.2) →
      readTagged depth kind (fields.map fun field => (readText field.1, field.2.toRaw)) =
        .ok (kind, fields.map fun field => (readText field.1, field.2.toRaw))
  | [], _, _ => rfl
  | field :: fields, hkind, hfits => by
    rw [List.forall_mem_cons] at hkind hfits
    have hrest := readTagged_fields kind hkind.2 hfits.2
    have hwhole : Json.readWhole depth field.2.toRaw = .ok () := by
      rw [Json.readWhole, hfits.1.readProblem?_toRaw]
    simp only [List.map_cons, readTagged, Json.content_readText, bind, Except.bind, hkind.1,
      if_false, hwhole, hrest, pure, Except.pure]

theorem taggedDeclaration_object {depth : Nat} (kind : DeclarationKind) {name : String}
    (hname : declarationKind (Json.text name).toRaw = .ok kind) {fields : List (String × Json)}
    (hkind : ∀ field ∈ fields, field.1 ≠ "kind")
    (hfits : ∀ field ∈ fields, Json.Fits depth field.2) :
    taggedDeclaration (depth + 1) (Json.object (("kind", .text name) :: fields)).toRaw =
      kind.decode (Json.object fields).toRaw := by
  have hread := readTagged_fields (some kind) hkind hfits
  simp only [Json.toRaw, List.map_cons, taggedDeclaration, Nat.add_sub_cancel, readTagged,
    Json.content_readText, bind, Except.bind] at hname hread ⊢
  simp [hname, hread]

theorem decode_declaration {declaration : Declaration} (h : declaration.LocationsFit) :
    taggedDeclaration (nestingLimit - 1) declaration.toJson.toRaw = .ok declaration := by
  cases declaration with
  | node declaration =>
    rw [Declaration.toJson, show nestingLimit - 1 = 125 + 1 from rfl,
      taggedDeclaration_object .node (by simp [Json.toRaw]; rfl)
        (by simp [NodeDeclaration.jsonFields]) (fits_nodeFields h)]
    simp only [DeclarationKind.decode, decode_node h, Except.map]
  | edge declaration =>
    rw [Declaration.toJson, show nestingLimit - 1 = 125 + 1 from rfl,
      taggedDeclaration_object .edge (by simp [Json.toRaw]; rfl)
        (by simp [EdgeDeclaration.jsonFields]) (fits_edgeFields h.1 h.2)]
    simp only [DeclarationKind.decode, decode_edge h.1 h.2, Except.map]

theorem Declaration.LocationsFit.toJson {declaration : Declaration}
    (h : declaration.LocationsFit) : Json.Fits 3 declaration.toJson := by
  cases declaration with
  | node declaration =>
    exact .object (List.forall_mem_cons.mpr ⟨.text _, fits_nodeFields h⟩)
  | edge declaration =>
    exact .object (List.forall_mem_cons.mpr ⟨.text _, fits_edgeFields h.1 h.2⟩)

/-! ### Texts -/

theorem decodeText_of_fits {α : Type} {depth : Nat} {value : Json} (h : Json.Fits depth value)
    (decode : Decoder α) {text : String} (htext : text ∈ [value.compress, value.pretty]) :
    Json.decodeText decode text = decode value.toRaw := by
  obtain rfl | rfl : text = value.compress ∨ text = value.pretty := by simpa using htext
  · exact Json.decodeText_characters h decode .compact
  · exact Json.decodeText_characters h decode (.indented 0)

/-- Every document is decoded from its own text, and every list of declarations with their
kinds from its own text as well: pushed one by one into an empty document, the node
declarations and the edge declarations are there in the order of the list. -/
theorem json_interchange :
    (∀ document : Document, document.LocationsFit →
      ∀ text ∈ [document.toJson.compress, document.toJson.pretty],
        Document.ofJson text = .ok document) ∧
    ∀ declarations : List Declaration, (∀ declaration ∈ declarations, declaration.LocationsFit) →
      ∀ text ∈ [(Json.list (declarations.map Declaration.toJson)).compress,
          (Json.list (declarations.map Declaration.toJson)).pretty],
        declarationsOfJson text = .ok declarations ∧
        ∃ decoded, declarationsOfJson text = .ok decoded ∧
          decoded.foldl Document.push {} =
            { nodeDeclarations := declarations.filterMap Declaration.node?
              edgeDeclarations := declarations.filterMap Declaration.edge? } := by
  refine ⟨fun document h text htext => ?_, fun declarations h text htext => ?_⟩
  · rw [Document.ofJson, decodeText_of_fits h.toJson _ htext, decode_document h]
  · have hfits : Json.Fits 4 (.list (declarations.map Declaration.toJson)) :=
      .list (List.forall_mem_map.mpr fun declaration hmem => (h declaration hmem).toJson)
    have hread : declarationsOfJson text = .ok declarations := by
      rw [declarationsOfJson, decodeText_of_fits hfits _ htext,
        decode_listOf fun declaration hmem => decode_declaration (h declaration hmem)]
    refine ⟨hread, declarations, hread, ?_⟩
    simpa [Document.append] using Document.append_eq {} declarations

/-- No list, an empty list and a list with some keys; a quote, a line break and a control
character; a flag that is written and is false. -/
def mixedDocument : Document where
  graphName := "g\n\"1\""
  graphAttributes := { bundle := some false, label := some "" }
  nodeDeclarations :=
    [⟨"A", ⟨1, 9⟩, none⟩, ⟨"B", ⟨2, 1⟩, some {}⟩,
      ⟨"C", ⟨3, 4294967295⟩, some { label := some "\x01 \\u0041", fontSize := some "12" }⟩]
  edgeDeclarations := [⟨"A", ⟨4, 1⟩, "C", ⟨4, 6⟩, true, some { color := some "red" }⟩]

theorem json_interchange_mixedDocument :
    Document.ofJson mixedDocument.toJson.compress = .ok mixedDocument ∧
    (let edge := Declaration.edge ⟨"B", ⟨2, 1⟩, "A", ⟨2, 6⟩, false, none⟩
     let node := Declaration.node ⟨"A", ⟨1, 1⟩, some { bundle := some true }⟩
     declarationsOfJson (Json.list ([edge, node].map Declaration.toJson)).pretty =
       .ok [edge, node]) :=
  ⟨json_interchange.1 mixedDocument ⟨by decide, by decide, by decide⟩ _ (by simp),
    (json_interchange.2 _ (by decide) _ (by simp)).1⟩

end NodeLink
