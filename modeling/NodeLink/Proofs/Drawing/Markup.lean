import Mathlib.Data.List.Forall2
import NodeLink.Proofs.Drawing.Escaping

/-! # Drawings read back from their text

A reader of markup, one character at a time: text up to a bracket, tags with their names and
quoted values, entities in both.  It knows nothing of drawings.  `readMarkup_render` says what
it finds in the text of a drawing: the tags that the drawing's commands stand for, in order,
with the texts of the commands as they are.

* `Reader.step`, `readMarkup`: the reader.
* `meaning`: what a command stands for, with every text as it is meant.
* `Element.ReadsAs`: an element as it is written against one as it is meant.
* `readMarkup_render`: the whole text. -/

namespace NodeLink.Svg

/-! ### A reader of markup -/

/-- What a reader of markup finds: a text between tags, or a tag that starts an element, is
one, or ends one. -/
inductive Markup where
  | text (content : String)
  | start (name : String) (attributes : List (String × String))
  | empty (name : String) (attributes : List (String × String))
  | stop (name : String)
  deriving DecidableEq, Repr

/-- A tag that is being read: its name and the attributes read so far. -/
structure OpenTag where
  name : String
  attributes : List (String × String) := []
  deriving DecidableEq, Repr

/-- Where a reader stands. -/
inductive Mode where
  /-- Outside tags, after some text since the last one. -/
  | outside (run : List Char)
  /-- After a bracket. -/
  | opened
  /-- In the name of a tag that ends an element. -/
  | stopName (name : List Char)
  /-- In the name of another tag. -/
  | tagName (name : List Char)
  /-- In a tag, where an attribute may stand. -/
  | inside (tag : OpenTag)
  /-- After a slash in a tag. -/
  | slash (tag : OpenTag)
  /-- In the name of an attribute. -/
  | key (tag : OpenTag) (key : List Char)
  /-- After the sign between name and value. -/
  | equals (tag : OpenTag) (key : List Char)
  /-- In a value, after some of its text. -/
  | value (tag : OpenTag) (key : List Char) (run : List Char)

/-- A reader: what it found so far, and where it stands. -/
structure Reader where
  found : List Markup := []
  mode : Mode := .outside []

/-- A character of a name. -/
def isNameChar (c : Char) : Bool :=
  c.isAlphanum || c = '-'

/-- What was found once a text between tags ends; an empty text is none. -/
def endText (found : List Markup) (run : List Char) : Option (List Markup) :=
  if run = [] then some found
  else (unescapeChars? run).map fun text => found ++ [.text (String.ofList text)]

/-- Reads one character more. -/
def Reader.step (reader : Reader) (c : Char) : Option Reader :=
  let found := reader.found
  match reader.mode with
  | .outside run =>
    if c = '<' then (endText found run).map fun found => ⟨found, .opened⟩
    else some ⟨found, .outside (run ++ [c])⟩
  | .opened =>
    if c = '/' then some ⟨found, .stopName []⟩
    else if isNameChar c then some ⟨found, .tagName [c]⟩
    else none
  | .stopName name =>
    if c = '>' then some ⟨found ++ [.stop (String.ofList name)], .outside []⟩
    else if isNameChar c then some ⟨found, .stopName (name ++ [c])⟩
    else none
  | .tagName name =>
    if c = ' ' then some ⟨found, .inside { name := String.ofList name }⟩
    else if c = '>' then some ⟨found ++ [.start (String.ofList name) []], .outside []⟩
    else if isNameChar c then some ⟨found, .tagName (name ++ [c])⟩
    else none
  | .inside tag =>
    if c = ' ' then some ⟨found, .inside tag⟩
    else if c = '>' then some ⟨found ++ [.start tag.name tag.attributes], .outside []⟩
    else if c = '/' then some ⟨found, .slash tag⟩
    else if isNameChar c then some ⟨found, .key tag [c]⟩
    else none
  | .slash tag =>
    if c = '>' then some ⟨found ++ [.empty tag.name tag.attributes], .outside []⟩ else none
  | .key tag key =>
    if c = '=' then some ⟨found, .equals tag key⟩
    else if isNameChar c then some ⟨found, .key tag (key ++ [c])⟩
    else none
  | .equals tag key => if c = '"' then some ⟨found, .value tag key []⟩ else none
  | .value tag key run =>
    if c = '"' then
      (unescapeChars? run).map fun value =>
        ⟨found, .inside
          { tag with attributes := tag.attributes ++ [(String.ofList key, String.ofList value)] }⟩
    else if c = '<' then none
    else some ⟨found, .value tag key (run ++ [c])⟩

/-- Reads a whole text, which has to end outside tags. -/
def readMarkup (text : String) : Option (List Markup) := do
  let reader ← text.toList.foldlM Reader.step {}
  match reader.mode with
  | .outside run => endText reader.found run
  | _ => none

/-- A reader gets over a text. -/
def Reads (before : Reader) (text : List Char) (after : Reader) : Prop :=
  text.foldlM Reader.step before = some after

theorem Reads.refl (reader : Reader) : Reads reader [] reader := rfl

theorem Reads.trans {a b c : Reader} {s t : List Char} (hs : Reads a s b) (ht : Reads b t c) :
    Reads a (s ++ t) c := by
  rw [Reads, List.foldlM_append, hs]
  exact ht

theorem Reads.cons {a b c : Reader} {x : Char} {s : List Char} (hx : a.step x = some b)
    (hs : Reads b s c) : Reads a (x :: s) c := by
  rw [Reads, List.foldlM_cons, hx]
  exact hs

theorem Reads.single {a b : Reader} {x : Char} (hx : a.step x = some b) : Reads a [x] b :=
  .cons hx (.refl b)

/-! ### Runs of characters -/

variable {found : List Markup} {tag : OpenTag}

/-- A run of characters that a mode gathers is gathered as a whole. -/
theorem reads_run (mode : List Char → Mode) {P : Char → Prop}
    (hstep : ∀ run c, P c → Reader.step ⟨found, mode run⟩ c = some ⟨found, mode (run ++ [c])⟩) :
    ∀ (text run : List Char), (∀ c ∈ text, P c) →
      Reads ⟨found, mode run⟩ text ⟨found, mode (run ++ text)⟩
  | [], run, _ => by
    rw [List.append_nil]
    exact .refl _
  | c :: text, run, h => by
    rw [List.forall_mem_cons] at h
    have hrest := reads_run mode hstep text (run ++ [c]) h.2
    rw [List.append_assoc] at hrest
    exact .cons (hstep run c h.1) hrest

theorem reads_outside {run text : List Char} (h : ∀ c ∈ text, c ≠ '<') :
    Reads ⟨found, .outside run⟩ text ⟨found, .outside (run ++ text)⟩ :=
  reads_run .outside (fun run c hc => by simp [Reader.step, hc]) text run h

theorem reads_value {key text : List Char} (h : ∀ c ∈ text, c ≠ '"' ∧ c ≠ '<') :
    Reads ⟨found, .value tag key []⟩ text ⟨found, .value tag key text⟩ :=
  reads_run (.value tag key) (fun run c hc => by simp [Reader.step, hc]) text [] h

/-! ### Names -/

/-- The name of a tag or an attribute. -/
def IsName (name : String) : Prop :=
  name.toList ≠ [] ∧ ∀ c ∈ name.toList, isNameChar c = true

instance (name : String) : Decidable (IsName name) :=
  decidable_of_iff (name.toList ≠ [] ∧ name.toList.all isNameChar = true)
    (and_congr_right fun _ => List.all_eq_true)

/-- A character of a name has no meaning of its own. -/
theorem ne_of_isNameChar {c : Char} (h : isNameChar c = true) :
    c ≠ ' ' ∧ c ≠ '>' ∧ c ≠ '/' ∧ c ≠ '=' := by
  refine ⟨?_, ?_, ?_, ?_⟩ <;> (rintro rfl; exact absurd h (by decide))

theorem reads_tagName {name : String} (h : IsName name) :
    Reads ⟨found, .opened⟩ name.toList ⟨found, .tagName name.toList⟩ := by
  obtain ⟨c, cs, hc⟩ := List.exists_cons_of_ne_nil h.1
  obtain ⟨hfirst, hrest⟩ := List.forall_mem_cons.mp (hc ▸ h.2)
  rw [hc]
  refine .cons (b := ⟨found, .tagName [c]⟩)
    (by simp [Reader.step, hfirst, ne_of_isNameChar hfirst]) ?_
  exact reads_run .tagName (fun run c hc => by simp [Reader.step, hc, ne_of_isNameChar hc])
    cs [c] hrest

theorem reads_stopName {name : String} (h : IsName name) :
    Reads ⟨found, .stopName []⟩ name.toList ⟨found, .stopName name.toList⟩ :=
  reads_run .stopName (fun run c hc => by simp [Reader.step, hc, ne_of_isNameChar hc])
    name.toList [] h.2

theorem reads_key {key : String} (h : IsName key) :
    Reads ⟨found, .inside tag⟩ key.toList ⟨found, .key tag key.toList⟩ := by
  obtain ⟨c, cs, hc⟩ := List.exists_cons_of_ne_nil h.1
  obtain ⟨hfirst, hrest⟩ := List.forall_mem_cons.mp (hc ▸ h.2)
  rw [hc]
  refine .cons (b := ⟨found, .key tag [c]⟩)
    (by simp [Reader.step, hfirst, ne_of_isNameChar hfirst]) ?_
  exact reads_run (.key tag) (fun run c hc => by simp [Reader.step, hc, ne_of_isNameChar hc])
    cs [c] hrest

/-! ### Texts as they are written and as they are meant -/

/-- A written text stands for another one, in a value as well as between tags. -/
structure Stands (written meant : String) : Prop where
  unbroken : ∀ c ∈ written.toList, c ≠ '"' ∧ c ≠ '<'
  entities : unescapeChars? written.toList = some meant.toList

theorem stands_escape (text : String) : Stands (escape text) text where
  unbroken c hc := by
    have hspecial := not_mem_escape hc
    simp only [List.mem_cons, not_or] at hspecial
    exact ⟨hspecial.2.2.1, hspecial.1⟩
  entities := by rw [toList_escape, unescapeChars?_flatMap]

theorem Plain.stands {text : String} (h : Plain text) : Stands text text := by
  have hescaped := stands_escape text
  rwa [escape_eq_self h] at hescaped

theorem stands_number (x : Float) : Stands (number x) (number x) :=
  (numeric_number x).plain.stands

/-- An attribute as it is written against one as it is meant. -/
structure AttributeReadsAs (written meant : String × String) : Prop where
  key : written.1 = meant.1
  isName : IsName written.1
  value : Stands written.2 meant.2

/-- An element as it is written against one as it is meant. -/
structure Element.ReadsAs (written meant : Element) : Prop where
  name : written.name = meant.name
  isName : IsName written.name
  attributed : written.attributes ≠ []
  attributes : List.Forall₂ AttributeReadsAs written.attributes meant.attributes
  content : Option.Rel Stands written.content meant.content

theorem reads_attribute {written meant : String × String} (h : AttributeReadsAs written meant) :
    Reads ⟨found, .inside tag⟩ (attributeText written)
      ⟨found, .inside { tag with attributes := tag.attributes ++ [meant] }⟩ := by
  obtain ⟨key, value⟩ := written
  obtain ⟨_, value'⟩ := meant
  obtain rfl : key = _ := h.key
  have hkey : Reads ⟨found, .inside tag⟩ key.toList ⟨found, .key tag key.toList⟩ :=
    reads_key h.isName
  have hsigns : Reads ⟨found, .key tag key.toList⟩ ['=', '"'] ⟨found, .value tag key.toList []⟩ :=
    .cons (b := ⟨found, .equals tag key.toList⟩) rfl (.single rfl)
  have hvalue : Reads ⟨found, .value tag key.toList []⟩ value.toList
      ⟨found, .value tag key.toList value.toList⟩ := reads_value h.value.unbroken
  have hquote : Reads ⟨found, .value tag key.toList value.toList⟩ ['"']
      ⟨found, .inside { tag with attributes := tag.attributes ++ [(key, value')] }⟩ :=
    .single (by simp [Reader.step, h.value.entities])
  rw [attributeText, List.cons_append, List.cons_append, List.cons_append]
  exact .cons (b := ⟨found, .inside tag⟩) rfl (((hkey.trans hsigns).trans hvalue).trans hquote)

theorem reads_attributes {written meant : List (String × String)}
    (h : List.Forall₂ AttributeReadsAs written meant) : ∀ tag : OpenTag,
    Reads ⟨found, .inside tag⟩ (written.flatMap attributeText)
      ⟨found, .inside { tag with attributes := tag.attributes ++ meant }⟩ := by
  induction h with
  | nil =>
    intro tag
    rw [List.append_nil]
    exact .refl _
  | @cons _ meant _ _ hfirst _ ih =>
    intro tag
    have hrest := (reads_attribute hfirst).trans
      (ih { tag with attributes := tag.attributes ++ [meant] })
    rw [List.append_assoc] at hrest
    exact hrest

theorem reads_head {written meant : Element} (h : written.ReadsAs meant) :
    Reads ⟨found, .opened⟩ written.head ⟨found, .inside ⟨meant.name, meant.attributes⟩⟩ := by
  obtain ⟨name, attributes, content⟩ := written
  obtain ⟨_, _, _⟩ := meant
  obtain rfl : name = _ := h.name
  obtain ⟨first, rest, rfl⟩ := List.exists_cons_of_ne_nil h.attributed
  have hname : Reads ⟨found, .opened⟩ name.toList ⟨found, .tagName name.toList⟩ :=
    reads_tagName h.isName
  -- the space before the first attribute ends the name
  have hspace : Reader.step ⟨found, .tagName name.toList⟩ ' ' =
      Reader.step ⟨found, .inside ⟨name, []⟩⟩ ' ' := by
    simp [Reader.step]
  have hattributes : Reads ⟨found, .inside ⟨name, []⟩⟩
      ((first :: rest).flatMap attributeText) ⟨found, .inside ⟨name, [] ++ _⟩⟩ :=
    reads_attributes h.attributes ⟨name, []⟩
  refine hname.trans ?_
  simp only [Reads, List.flatMap_cons, attributeText, List.cons_append, List.foldlM_cons,
    hspace] at hattributes ⊢
  exact hattributes

/-! ### Elements -/

/-- What a reader finds of a text between tags. -/
def textMarkup (text : String) : List Markup :=
  if text = "" then [] else [.text text]

/-- What a reader finds of an element. -/
def Element.markup (element : Element) : List Markup :=
  match element.content with
  | none => [.empty element.name element.attributes]
  | some text =>
    .start element.name element.attributes :: textMarkup text ++ [.stop element.name]

/-- The elements that tags stand for; texts between elements do not count. -/
def elementsOf : List Markup → List Element
  | [] => []
  | .empty name attributes :: rest => ⟨name, attributes, none⟩ :: elementsOf rest
  | .start name attributes :: .text content :: .stop _ :: rest =>
    ⟨name, attributes, some content⟩ :: elementsOf rest
  | .start name attributes :: .stop _ :: rest => ⟨name, attributes, some ""⟩ :: elementsOf rest
  | _ :: rest => elementsOf rest

theorem elementsOf_markup (element : Element) (rest : List Markup) :
    elementsOf (element.markup ++ rest) = element :: elementsOf rest := by
  obtain ⟨name, attributes, content⟩ := element
  cases content with
  | none => rfl
  | some text =>
    by_cases hempty : text = ""
    · simp [Element.markup, textMarkup, hempty, elementsOf]
    · simp [Element.markup, textMarkup, hempty, elementsOf]

theorem elementsOf_flatMap (elements : List Element) (rest : List Markup) :
    elementsOf (elements.flatMap (fun element => .text "\n  " :: element.markup) ++ rest) =
      elements ++ elementsOf rest := by
  induction elements with
  | nil => rfl
  | cons element elements ih =>
    rw [List.flatMap_cons, List.append_assoc, List.cons_append, elementsOf, elementsOf_markup, ih]
    · rfl
    all_goals simp

theorem unescapeChars?_eq_nil : ∀ {text : List Char}, unescapeChars? text = some [] → text = []
  | [], _ => rfl
  | c :: text, h => by
    unfold unescapeChars? at h
    split at h
    all_goals first | contradiction | simp at h

theorem endText_stands {written meant : String} (h : Stands written meant) :
    endText found written.toList = some (found ++ textMarkup meant) := by
  by_cases hempty : written.toList = []
  · have hmeant : meant = "" := by
      have hread := h.entities
      rw [hempty] at hread
      simpa [unescapeChars?] using hread.symm
    simp [endText, hempty, textMarkup, hmeant]
  · have hmeant : meant ≠ "" := by
      rintro rfl
      exact hempty (unescapeChars?_eq_nil (by simpa using h.entities))
    simp [endText, hempty, textMarkup, hmeant, h.entities]

theorem reads_content {name written meant : String} (hname : IsName name)
    (h : Stands written meant) :
    Reads ⟨found, .outside []⟩ (written.toList ++ ['<', '/'] ++ name.toList ++ ['>', '\n'])
      ⟨found ++ textMarkup meant ++ [.stop name], .outside ['\n']⟩ := by
  have hrun : Reads ⟨found, .outside []⟩ written.toList ⟨found, .outside written.toList⟩ :=
    reads_outside fun c hc => (h.unbroken c hc).2
  have hend : Reads ⟨found, .outside written.toList⟩ ['<', '/']
      ⟨found ++ textMarkup meant, .stopName []⟩ :=
    .cons (b := ⟨found ++ textMarkup meant, .opened⟩)
      (by simp [Reader.step, endText_stands h]) (.single rfl)
  have hstop : Reads ⟨found ++ textMarkup meant, .stopName name.toList⟩ ['>', '\n']
      ⟨found ++ textMarkup meant ++ [.stop name], .outside ['\n']⟩ := by
    simp [Reads, Reader.step]
  exact ((hrun.trans hend).trans (reads_stopName hname)).trans hstop

theorem reads_line {written meant : Element} (h : written.ReadsAs meant) :
    Reads ⟨found, .outside ['\n']⟩ written.line
      ⟨found ++ .text "\n  " :: meant.markup, .outside ['\n']⟩ := by
  have hopen : Reads ⟨found, .outside ['\n']⟩ [' ', ' ', '<']
      ⟨found ++ [.text "\n  "], .opened⟩ := rfl
  have hhead : Reads ⟨found ++ [.text "\n  "], .opened⟩ written.head
      ⟨found ++ [.text "\n  "], .inside ⟨meant.name, meant.attributes⟩⟩ := reads_head h
  have hcontent := h.content
  rw [Element.line, Element.markup]
  refine (hopen.trans hhead).trans ?_
  cases hwritten : written.content with
  | none =>
    rw [hwritten] at hcontent
    cases hmeant : meant.content with
    | none => simp [Reads, Reader.step]
    | some text => rw [hmeant] at hcontent; cases hcontent
  | some text =>
    rw [hwritten] at hcontent
    cases hmeant : meant.content with
    | none => rw [hmeant] at hcontent; cases hcontent
    | some text' =>
      rw [hmeant] at hcontent
      have hstands : Stands text text' := by cases hcontent; assumption
      let started := found ++ [.text "\n  ", .start meant.name meant.attributes]
      have hrest : Reads ⟨started, .outside []⟩
          (text.toList ++ ['<', '/'] ++ written.name.toList ++ ['>', '\n'])
          ⟨started ++ textMarkup text' ++ [.stop written.name], .outside ['\n']⟩ :=
        reads_content h.isName hstands
      refine .cons (b := ⟨started, .outside []⟩) (by simp [Reader.step, started]) ?_
      simpa [started, h.name] using hrest

theorem reads_lines {written meant : List Element}
    (h : List.Forall₂ Element.ReadsAs written meant) : ∀ found : List Markup,
    Reads ⟨found, .outside ['\n']⟩ (written.flatMap Element.line)
      ⟨found ++ meant.flatMap fun element => .text "\n  " :: element.markup,
        .outside ['\n']⟩ := by
  induction h with
  | nil =>
    intro found
    rw [List.flatMap_nil, List.flatMap_nil, List.append_nil]
    exact .refl _
  | cons hfirst _ ih =>
    intro found
    have hline := @reads_line found _ _ hfirst
    simpa using hline.trans (ih _)

/-! ### Drawings -/

/-- How an edge is meant to look. -/
def strokeMeaning (options : EdgeOptions) : List (String × String) :=
  [("stroke", options.color.getD "#333333"), ("stroke-width", options.lineWidth.getD "1")]

/-- The elements that a command stands for, with every text as it is in the graph. -/
def meaning : DrawCommand Float → List Element
  | .circle center radius options =>
    ⟨"circle", [("cx", number center.x), ("cy", number center.y), ("r", number radius),
      ("fill", options.color.getD "#ffffff"), ("stroke", "#333333")], none⟩ ::
    (options.label.map fun label =>
      ⟨"text", [("x", number center.x), ("y", number center.y),
        ("font-family", options.font.getD "sans-serif"),
        ("font-size", options.fontSize.getD "12px"), ("text-anchor", "middle"),
        ("dominant-baseline", "central")], some label⟩).toList
  | .line tail head options =>
    [⟨"line", [("x1", number tail.x), ("y1", number tail.y), ("x2", number head.x),
      ("y2", number head.y)] ++ strokeMeaning options, none⟩]
  | .polyline [] _ => []
  | .polyline (first :: rest) options =>
    [⟨"path", [("d", pathData first rest), ("fill", "none")] ++ strokeMeaning options, none⟩]
  | .finish => []

/-- The element that a background stands for. -/
def backgroundMeaning (color : String) : Element :=
  ⟨"rect", [("width", "100%"), ("height", "100%"), ("fill", color)], none⟩

/-- The tag that starts a drawing. -/
def rootMarkup (width height : Float) : Markup :=
  .start "svg" [("xmlns", "http://www.w3.org/2000/svg"), ("width", number width),
    ("height", number height), ("viewBox", "0 0 " ++ number width ++ " " ++ number height)]

theorem attributeReadsAs {key written meant : String} (hkey : IsName key)
    (h : Stands written meant) : AttributeReadsAs (key, written) (key, meant) :=
  ⟨rfl, hkey, h⟩

theorem strokeAttributes_readsAs (options : EdgeOptions) :
    List.Forall₂ AttributeReadsAs (strokeAttributes options) (strokeMeaning options) :=
  .cons (attributeReadsAs (by decide) (stands_escape _))
    (.cons (attributeReadsAs (by decide) (stands_escape _)) .nil)

theorem background_readsAs (color : String) :
    (background color).ReadsAs (backgroundMeaning color) where
  name := rfl
  isName := show IsName "rect" by decide
  attributed := by simp [background]
  attributes := .cons (attributeReadsAs (by decide) (Plain.stands (by decide)))
    (.cons (attributeReadsAs (by decide) (Plain.stands (by decide)))
      (.cons (attributeReadsAs (by decide) (stands_escape color)) .nil))
  content := .none

/-- Every text of the graph is escaped where it enters an element. -/
theorem elements_readsAs (command : DrawCommand Float) :
    List.Forall₂ Element.ReadsAs (elements command) (meaning command) := by
  have hnumber : ∀ {key : String} (x : Float), IsName key →
      AttributeReadsAs (key, number x) (key, number x) :=
    fun x hkey => attributeReadsAs hkey (stands_number x)
  cases command with
  | circle center radius options =>
    refine .cons ⟨rfl, show IsName "circle" by decide, by simp, ?_, .none⟩ ?_
    · exact .cons (hnumber _ (by decide)) (.cons (hnumber _ (by decide))
        (.cons (hnumber _ (by decide)) (.cons (attributeReadsAs (by decide) (stands_escape _))
          (.cons (attributeReadsAs (by decide) (Plain.stands (by decide))) .nil))))
    · cases options.label with
      | none => exact .nil
      | some label =>
        refine .cons ⟨rfl, show IsName "text" by decide, by simp, ?_,
          .some (stands_escape label)⟩ .nil
        exact .cons (hnumber _ (by decide)) (.cons (hnumber _ (by decide))
          (.cons (attributeReadsAs (by decide) (stands_escape _))
            (.cons (attributeReadsAs (by decide) (stands_escape _))
              (.cons (attributeReadsAs (by decide) (Plain.stands (by decide)))
                (.cons (attributeReadsAs (by decide) (Plain.stands (by decide))) .nil)))))
  | line tail head options =>
    refine .cons ⟨rfl, show IsName "line" by decide, by simp, ?_, .none⟩ .nil
    exact .cons (hnumber _ (by decide)) (.cons (hnumber _ (by decide))
      (.cons (hnumber _ (by decide)) (.cons (hnumber _ (by decide))
        (strokeAttributes_readsAs options))))
  | polyline points options =>
    cases points with
    | nil => exact .nil
    | cons first rest =>
      refine .cons ⟨rfl, show IsName "path" by decide, by simp, ?_, .none⟩ .nil
      exact .cons (attributeReadsAs (by decide) (numeric_pathData first rest).plain.stands)
        (.cons (attributeReadsAs (by decide) (Plain.stands (by decide)))
          (strokeAttributes_readsAs options))
  | finish => exact .nil

theorem root_readsAs (width height : Float) :
    (root width height).ReadsAs
      ⟨"svg", [("xmlns", "http://www.w3.org/2000/svg"), ("width", number width),
        ("height", number height), ("viewBox", "0 0 " ++ number width ++ " " ++ number height)],
        none⟩ where
  name := rfl
  isName := show IsName "svg" by decide
  attributed := by simp [root]
  attributes := by
    have hzeros : Numeric "0 0 " := by decide
    have hspace : Numeric " " := by decide
    have hbox : Numeric ("0 0 " ++ number width ++ " " ++ number height) :=
      ((hzeros.append (numeric_number width)).append hspace).append (numeric_number height)
    exact .cons (attributeReadsAs (by decide) (Plain.stands (by decide)))
      (.cons (attributeReadsAs (by decide) (stands_number width))
        (.cons (attributeReadsAs (by decide) (stands_number height))
          (.cons (attributeReadsAs (by decide) hbox.plain.stands) .nil)))
  content := .none

theorem children_readsAs (color : Option String) (commands : List (DrawCommand Float)) :
    List.Forall₂ Element.ReadsAs (children color commands)
      ((color.map backgroundMeaning).toList ++ commands.flatMap meaning) := by
  have hbackground : List.Forall₂ Element.ReadsAs (color.map background).toList
      (color.map backgroundMeaning).toList := by
    cases color with
    | none => exact .nil
    | some color => exact .cons (background_readsAs color) .nil
  refine List.rel_append hbackground ?_
  induction commands with
  | nil => exact .nil
  | cons command commands ih =>
    rw [List.flatMap_cons, List.flatMap_cons]
    exact List.rel_append (elements_readsAs command) ih

/-- The text of a drawing is read as the tags that its commands stand for, in order, and no
other. -/
theorem readMarkup_render (width height : Float) (color : Option String)
    (commands : List (DrawCommand Float)) :
    readMarkup (render width height color commands) =
      some (rootMarkup width height ::
        ((color.map backgroundMeaning).toList ++ commands.flatMap meaning).flatMap
            (fun element => .text "\n  " :: element.markup) ++
          [.text "\n", .stop "svg", .text "\n"]) := by
  have hhead : Reads ⟨[], .opened⟩ (root width height).head
      ⟨[], .inside ⟨"svg", _⟩⟩ := reads_head (root_readsAs width height)
  have hroot : Reads {} ('<' :: (root width height).head ++ ['>', '\n'])
      ⟨[rootMarkup width height], .outside ['\n']⟩ :=
    (Reads.cons (b := ⟨[], .opened⟩) rfl hhead).trans
      (.cons (b := ⟨[rootMarkup width height], .outside []⟩) rfl (.single rfl))
  have hend : ∀ found, Reads ⟨found, .outside ['\n']⟩ "</svg>\n".toList
      ⟨found ++ [.text "\n", .stop "svg"], .outside ['\n']⟩ := by
    intro found
    simp [Reads, Reader.step, endText, unescapeChars?, isNameChar]
  have hall := (hroot.trans (reads_lines (children_readsAs color commands) _)).trans (hend _)
  rw [readMarkup, render, String.toList_ofList, hall]
  simp [endText, unescapeChars?]

/-- The elements in the text of a drawing, the one around them left out. -/
def readElements (text : String) : Option (List Element) :=
  (readMarkup text).map fun found => elementsOf found.tail

theorem readElements_render (width height : Float) (color : Option String)
    (commands : List (DrawCommand Float)) :
    readElements (render width height color commands) =
      some ((color.map backgroundMeaning).toList ++ commands.flatMap meaning) := by
  rw [readElements, readMarkup_render]
  simp only [Option.map_some, List.cons_append, List.tail_cons, elementsOf_flatMap]
  simp [elementsOf]

/-- **Escaped texts can be read back** and hold nothing that ends an attribute, a tag or an entity.
The text of every drawing is read as the background and what its commands stand for, with their
texts as they are, and as no other tags. -/
theorem drawing_readBack :
    (∀ text, unescape? (escape text) = some text) ∧ Function.Injective escape ∧
    (∀ text c, c ∈ (escape text).toList → c ∉ ['<', '>', '"']) ∧
    (∀ text before after, (escape text).toList = before ++ '&' :: after →
      ∃ entity ∈ entities, entity.toList <+: '&' :: after) ∧
    ∀ (graph : Graph Float) (frame : Frame Float) (bundling : BundlingParameters Float)
      (color : Option String),
      let drawn :=
        (color.map backgroundMeaning).toList ++ (graph.draw frame bundling).2.flatMap meaning
      let text := render frame.width frame.height color (graph.draw frame bundling).2
      readMarkup text =
          some (rootMarkup frame.width frame.height ::
            drawn.flatMap (fun element => .text "\n  " :: element.markup) ++
            [.text "\n", .stop "svg", .text "\n"]) ∧
        readElements text = some drawn :=
  ⟨unescape?_escape, escape_injective, fun _ _ => not_mem_escape,
    fun _ _ _ => ampersand_escape,
    fun _ _ _ _ => ⟨readMarkup_render .., readElements_render ..⟩⟩

end NodeLink.Svg
