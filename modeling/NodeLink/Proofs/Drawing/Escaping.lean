import Mathlib.Data.List.Infix
import NodeLink.Drawing.Svg

/-! # Escaped texts

`escape` replaces four characters one after the other, each in the whole text.  Since
ampersands come first, no replacement touches what another one brought, and the result is the
text with each character replaced on its own (`toList_escape`).  `unescape?` reads entities
back and refuses an ampersand that begins none.

* `unescape?_escape`: reading back what was escaped gives the text, so `escape` is injective.
* `not_mem_escape`, `ampersand_escape`: what stands in an escaped text.
* `escape_number`, `escape_pathData`: numbers need no escaping, and are written without. -/

namespace NodeLink.Svg

/-! ### One character at a time -/

/-- A character as it stands in an escaped text. -/
def escapeChar (c : Char) : List Char :=
  if c = '&' then "&amp;".toList
  else if c = '<' then "&lt;".toList
  else if c = '>' then "&gt;".toList
  else if c = '"' then "&quot;".toList
  else [c]

@[simp] theorem toList_replace (character : Char) (replacement text : String) :
    (replace character replacement text).toList =
      text.toList.flatMap fun c => if c = character then replacement.toList else [c] := by
  simp [replace]

/-- The four replacements do not meet. -/
theorem toList_escape (text : String) : (escape text).toList = text.toList.flatMap escapeChar := by
  simp only [escape, toList_replace, List.flatMap_assoc]
  refine congrArg (List.flatMap · text.toList) (funext fun c => ?_)
  by_cases hamp : c = '&'
  · subst c; rfl
  by_cases hlt : c = '<'
  · subst c; rfl
  by_cases hgt : c = '>'
  · subst c; rfl
  by_cases hquot : c = '"'
  · subst c; rfl
  simp [escapeChar, hamp, hlt, hgt, hquot]

/-! ### Reading entities back -/

/-- The characters that a text with entities stands for, unless an ampersand begins none. -/
def unescapeChars? : List Char → Option (List Char)
  | [] => some []
  | '&' :: 'a' :: 'm' :: 'p' :: ';' :: rest => (unescapeChars? rest).map ('&' :: ·)
  | '&' :: 'l' :: 't' :: ';' :: rest => (unescapeChars? rest).map ('<' :: ·)
  | '&' :: 'g' :: 't' :: ';' :: rest => (unescapeChars? rest).map ('>' :: ·)
  | '&' :: 'q' :: 'u' :: 'o' :: 't' :: ';' :: rest => (unescapeChars? rest).map ('"' :: ·)
  | '&' :: _ => none
  | c :: rest => (unescapeChars? rest).map (c :: ·)

/-- The text that a text with entities stands for. -/
def unescape? (text : String) : Option String :=
  (unescapeChars? text.toList).map String.ofList

theorem unescapeChars?_escapeChar (c : Char) (input : List Char) :
    unescapeChars? (escapeChar c ++ input) = (unescapeChars? input).map (c :: ·) := by
  unfold escapeChar
  split_ifs with hamp
  all_goals try subst c; rfl
  simp [unescapeChars?, hamp]

theorem unescapeChars?_flatMap : ∀ text : List Char,
    unescapeChars? (text.flatMap escapeChar) = some text
  | [] => rfl
  | c :: text => by
    rw [List.flatMap_cons, unescapeChars?_escapeChar, unescapeChars?_flatMap text]
    rfl

/-- Reading back what was escaped gives the text, whatever stands in it. -/
theorem unescape?_escape (text : String) : unescape? (escape text) = some text := by
  simp [unescape?, toList_escape, unescapeChars?_flatMap]

theorem escape_injective : Function.Injective escape := by
  intro a b h
  simpa [unescape?_escape] using congrArg unescape? h

/-! ### What stands in an escaped text -/

theorem not_mem_of_all {text forbidden : List Char}
    (h : text.all (fun c => !forbidden.contains c) = true) {c : Char} (hc : c ∈ text) :
    c ∉ forbidden := by
  simpa using List.all_eq_true.mp h c hc

/-- No bracket and no quote stands in an escaped text. -/
theorem not_mem_escape {text : String} {c : Char} (h : c ∈ (escape text).toList) :
    c ∉ ['<', '>', '"'] := by
  rw [toList_escape, List.mem_flatMap] at h
  obtain ⟨d, -, hd⟩ := h
  unfold escapeChar at hd
  split_ifs at hd with hamp hlt hgt hquot
  iterate 4
    exact not_mem_of_all (by decide) hd
  obtain rfl : c = d := by simpa using hd
  simp [hlt, hgt, hquot]

/-- The entities of an escaped text. -/
def entities : List String := ["&amp;", "&lt;", "&gt;", "&quot;"]

/-- Every ampersand of an escaped text begins an entity. -/
theorem ampersand_escape {text : String} {before after : List Char}
    (h : (escape text).toList = before ++ '&' :: after) :
    ∃ entity ∈ entities, entity.toList <+: '&' :: after := by
  rw [toList_escape] at h
  have hsuffix : '&' :: after <:+ text.toList.flatMap escapeChar := ⟨before, h.symm⟩
  clear h
  generalize text.toList = cs at hsuffix
  induction cs with
  | nil => simp at hsuffix
  | cons c rest ih =>
    rw [List.flatMap_cons] at hsuffix
    generalize rest.flatMap escapeChar = input at ih hsuffix
    unfold escapeChar at hsuffix
    split_ifs at hsuffix with hamp hlt hgt hquot
    -- the text starts with the entity or the ampersand comes later
    all_goals simp [List.suffix_cons_iff] at hsuffix
    · obtain rfl | hlater := hsuffix
      · exact ⟨"&amp;", by simp [entities], input, rfl⟩
      · exact ih hlater
    · obtain rfl | hlater := hsuffix
      · exact ⟨"&lt;", by simp [entities], input, rfl⟩
      · exact ih hlater
    · obtain rfl | hlater := hsuffix
      · exact ⟨"&gt;", by simp [entities], input, rfl⟩
      · exact ih hlater
    · obtain rfl | hlater := hsuffix
      · exact ⟨"&quot;", by simp [entities], input, rfl⟩
      · exact ih hlater
    · obtain ⟨rfl, -⟩ | hlater := hsuffix
      · exact absurd rfl hamp
      · exact ih hlater

/-! ### Texts that need no escaping -/

/-- A text without the four characters that are escaped. -/
def Plain (text : String) : Prop :=
  ∀ c ∈ text.toList, c ∉ ['&', '<', '>', '"']

instance (text : String) : Decidable (Plain text) :=
  decidable_of_iff (text.toList.all (fun c => !List.contains ['&', '<', '>', '"'] c) = true)
    ⟨fun h _ hc => not_mem_of_all h hc, fun h => List.all_eq_true.mpr fun c hc => by
      simpa using h c hc⟩

theorem escape_eq_self {text : String} (h : Plain text) : escape text = text := by
  have hchars : ∀ cs : List Char, (∀ c ∈ cs, c ∉ ['&', '<', '>', '"']) →
      cs.flatMap escapeChar = cs := by
    intro cs hcs
    induction cs with
    | nil => rfl
    | cons c cs ih =>
      rw [List.forall_mem_cons] at hcs
      have hc : escapeChar c = [c] := by
        simp only [List.mem_cons, not_or] at hcs
        simp [escapeChar, hcs.1]
      rw [List.flatMap_cons, hc, ih hcs.2]
      rfl
  rw [← String.toList_inj, toList_escape, hchars _ h]

/-- A character of numbers, or one that stands between them in a path. -/
def isNumeric (c : Char) : Bool :=
  c.isAlphanum || c = '.' || c = '-' || c = ',' || c = ' '

/-- A text of numbers. -/
def Numeric (text : String) : Prop :=
  ∀ c ∈ text.toList, isNumeric c = true

instance (text : String) : Decidable (Numeric text) :=
  decidable_of_iff (text.toList.all isNumeric = true) List.all_eq_true

theorem Numeric.append {a b : String} (ha : Numeric a) (hb : Numeric b) : Numeric (a ++ b) := by
  intro c hc
  rw [String.toList_append, List.mem_append] at hc
  exact hc.elim (ha c) (hb c)

theorem Numeric.plain {text : String} (h : Numeric text) : Plain text := by
  intro c hc hspecial
  have hnumeric := h c hc
  simp only [List.mem_cons, List.not_mem_nil, or_false] at hspecial
  obtain rfl | rfl | rfl | rfl := hspecial <;> exact absurd hnumeric (by decide)

theorem isNumeric_of_mem_digitsOf {n : Nat} {c : Char} (h : c ∈ Decimal.digitsOf n) :
    isNumeric c = true := by
  have hdigit : c.isDigit = true := Nat.isDigit_of_mem_toDigits (by decide) (by decide) h
  simp [isNumeric, Char.isAlphanum, hdigit]

theorem isNumeric_of_mem_plainText {layout : Decimal.Layout} {digits : Decimal.Digits} {c : Char}
    (h : c ∈ Decimal.plainText layout digits) : isNumeric c = true := by
  have hzeros : ∀ {n : Nat}, c ∈ List.replicate n '0' → isNumeric c = true := by
    intro n hc
    rw [(List.mem_replicate.mp hc).2]
    rfl
  rw [Decimal.plainText] at h
  split_ifs at h with hexponent hfraction
  · simp only [List.mem_append, List.mem_cons, List.not_mem_nil, or_false] at h
    obtain (hc | hc) | rfl | rfl := h
    · exact isNumeric_of_mem_digitsOf hc
    · exact hzeros hc
    · rfl
    · rfl
  · simp only [List.mem_append, List.append_nil] at h
    exact h.elim isNumeric_of_mem_digitsOf hzeros
  · -- padded digits with a point among them
    simp only [List.mem_append, List.mem_cons] at h
    have hpadded : ∀ {places : Nat},
        c ∈ List.replicate places '0' ++ Decimal.digitsOf digits.coefficient →
          isNumeric c = true := by
      intro places hc
      exact (List.mem_append.mp hc).elim hzeros isNumeric_of_mem_digitsOf
    obtain hc | rfl | hc := h
    · exact hpadded (List.mem_of_mem_take hc)
    · rfl
    · exact hpadded (List.mem_of_mem_drop hc)

/-- The number of a drawing is a text of numbers, also when it is none. -/
theorem numeric_number (x : Float) : Numeric (number x) := by
  intro c hc
  rw [number, Decimal.Layout.render?] at hc
  split at hc
  · rename_i text heq
    split at heq
    · rename_i negative m q _
      obtain rfl := Option.some.inj heq
      rw [String.toList_ofList, List.mem_append] at hc
      obtain hc | hc := hc
      · cases negative
        · simp at hc
        · obtain rfl : c = '-' := by simpa using hc
          rfl
      · rw [Decimal.Layout.magnitude] at hc
        split_ifs at hc <;> exact isNumeric_of_mem_plainText hc
    · cases heq
  · split_ifs at hc
    all_goals exact List.all_eq_true.mp (by decide) c hc

theorem numeric_coordinates (point : Point Float) : Numeric (coordinates point) :=
  ((numeric_number point.x).append (by decide)).append (numeric_number point.y)

theorem numeric_pathData (first : Point Float) (rest : List (Point Float)) :
    Numeric (pathData first rest) := by
  have hfold : ∀ (points : List (Point Float)) (text : String), Numeric text →
      Numeric (points.foldl (fun text point => text ++ " L" ++ coordinates point) text) := by
    intro points
    induction points with
    | nil => exact fun text h => h
    | cons point points ih =>
      exact fun text h => ih _ ((h.append (by decide)).append
        (numeric_coordinates point))
  have hmove : Numeric "M" := by decide
  exact hfold rest _ (hmove.append (numeric_coordinates first))

end NodeLink.Svg
