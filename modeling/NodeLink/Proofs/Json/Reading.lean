import Mathlib.Data.List.TakeWhile
import NodeLink.Json.Decode
import NodeLink.Json.Value

/-! # Written JSON texts are read back

`Json.characters` writes a value and `rawValue` reads one.  `Json.toRaw` says what is read for
what was written, and `rawValue_characters` that it is read from every text of the value, in
either spacing, with the rest of the input untouched: the reader stops where the value ends.
Values with doubles stay out, since a double is not always read back as itself.

* `Json.Fits depth`: a value without doubles, its integers within sixty-four bits, its
  containers at most `depth` deep.
* `stringParts_escape`, `rawNumber_digitsOf`: strings and natural numbers.
* `rawValue_characters`, `decodeText_characters`: values and whole texts.
* `Json.Fits.readProblem?_toRaw`: nothing is wrong with a value that is read whole. -/

namespace NodeLink

namespace Json

/-! ### What is read -/

/-- The literal of an integer. -/
def intLiteral (n : Int) : NumberLiteral where
  negative := n < 0
  whole := leadingDigits (Decimal.digitsOf n.natAbs)

/-- A string as it is read. -/
def readText (s : String) : RawText := ⟨.ok s, none⟩

@[simp] theorem content_readText (s : String) : (readText s).content = .ok s := rfl

/-- The value that is read from the text of a value without doubles. -/
def toRaw : Json → Raw
  | null => .null
  | bool value => .bool value
  | int n => .number (intLiteral n) none
  | num _ => .null
  | text s => .text (readText s)
  | list items => .list (items.map toRaw) .closed
  | object fields => .object (fields.map fun field => (readText field.1, toRaw field.2)) none
termination_by value => sizeOf value
decreasing_by
  all_goals simp_wf
  · have := List.sizeOf_lt_of_mem ‹_›
    omega
  · have := List.sizeOf_lt_of_mem ‹field ∈ fields›
    have : sizeOf field.2 < sizeOf field := by
      cases field
      simp only [Prod.mk.sizeOf_spec]
      omega
    omega

/-- A value without doubles, whose integers have at most sixty-four bits and whose containers
are at most `depth` deep. -/
inductive Fits : Nat → Json → Prop
  | null {depth : Nat} : Fits depth null
  | bool {depth : Nat} (value : Bool) : Fits depth (bool value)
  | int {depth : Nat} {n : Int} (low : -(Nat.pow 2 63 : Int) ≤ n) (high : n ≤ maxSignificand) :
      Fits depth (int n)
  | text {depth : Nat} (s : String) : Fits depth (text s)
  | list {depth : Nat} {items : List Json} (inner : ∀ item ∈ items, Fits depth item) :
      Fits (depth + 1) (list items)
  | object {depth : Nat} {fields : List (String × Json)}
      (inner : ∀ field ∈ fields, Fits depth field.2) : Fits (depth + 1) (object fields)

/-! ### Blanks -/

theorem skipBlanks_append {blanks : List Char} (h : ∀ c ∈ blanks, isJsonBlank c = true)
    (input : List Char) : skipBlanks (blanks ++ input) = skipBlanks input :=
  List.dropWhile_append_of_pos h

theorem skipBlanks_cons {c : Char} (h : isJsonBlank c = false) (input : List Char) :
    skipBlanks (c :: input) = c :: input :=
  List.dropWhile_cons_of_neg (by simp [h])

theorem isJsonBlank_of_mem_gap {spacing : Spacing} {c : Char} (h : c ∈ spacing.gap) :
    isJsonBlank c = true := by
  cases spacing with
  | compact => cases h
  | indented depth =>
    simp only [Spacing.gap, List.mem_cons, List.mem_replicate] at h
    obtain rfl | ⟨-, rfl⟩ := h <;> rfl

@[simp] theorem skipBlanks_gap (spacing : Spacing) (input : List Char) :
    skipBlanks (spacing.gap ++ input) = skipBlanks input :=
  skipBlanks_append (fun _ h => isJsonBlank_of_mem_gap h) input

theorem isJsonBlank_of_isDigit {c : Char} (hc : c.isDigit = true) : isJsonBlank c = false := by
  by_contra h
  simp only [isJsonBlank, Bool.or_eq_true, decide_eq_true_eq, Bool.not_eq_false] at h
  obtain ((rfl | rfl) | rfl) | rfl := h <;> exact absurd hc (by decide)

@[simp] theorem Spacing.colon_deeper (spacing : Spacing) :
    spacing.deeper.colon = spacing.colon := by
  cases spacing <;> rfl

theorem exists_colon_eq (spacing : Spacing) :
    ∃ blanks, spacing.colon = ':' :: blanks ∧ ∀ c ∈ blanks, isJsonBlank c = true := by
  cases spacing with
  | compact => exact ⟨[], rfl, by simp⟩
  | indented depth => exact ⟨[' '], rfl, by simp [isJsonBlank]⟩

/-! ### Strings -/

/-- The part of a string that a character is written as. -/
def partOf (c : Char) : StringPart :=
  if c.toNat < 0x20 ∧ c ∉ ['\x08', '\x0c', '\n', '\r', '\t'] then .unit c.toNat else .char c

theorem hexUnit?_hexDigit {n : Nat} (h : n < 0x20) :
    hexUnit? '0' '0' (hexDigit (n / 16)) (hexDigit n) = some n := by
  revert n
  decide

theorem stringParts_escapeChar (c : Char) (input : List Char) :
    stringParts (escapeChar c ++ input) =
      (partOf c :: (stringParts input).1, (stringParts input).2) := by
  unfold escapeChar
  split_ifs with hquote hslash hb hf hn hr ht hcontrol
  all_goals try subst c; rfl
  · have hpart : partOf c = .unit c.toNat := by simp [partOf, *]
    simp [stringParts, hexUnit?_hexDigit hcontrol, hpart]
  · have hpart : partOf c = .char c := by simp [partOf, hcontrol]
    simp [stringParts, hslash, hcontrol, hpart]

theorem stringParts_escape : ∀ (s : List Char) (input : List Char),
    stringParts (s.flatMap escapeChar ++ '"' :: input) = (s.map partOf, .ok input)
  | [], _ => rfl
  | c :: s, input => by
    rw [List.flatMap_cons, List.append_assoc, stringParts_escapeChar, stringParts_escape s]
    rfl

theorem joinParts_partOf : ∀ s : List Char, joinParts none (s.map partOf) = .ok s
  | [] => rfl
  | c :: s => by
    rw [List.map_cons, partOf]
    split_ifs with h
    · -- a control character is no half of a pair
      have hlead : isLeadingUnit c.toNat = false := by simp [isLeadingUnit]; omega
      have htrail : isTrailingUnit c.toNat = false := by simp [isTrailingUnit]; omega
      rw [joinParts.eq_def]
      simp [hlead, htrail, joinParts_partOf s, Except.map]
    · simp [joinParts, joinParts_partOf s, Except.map]

theorem quote_append (s : String) (input : List Char) :
    quote s ++ input = '"' :: (s.toList.flatMap escapeChar ++ '"' :: input) := by
  simp [quote]

theorem rawText_escape (s : String) (input : List Char) :
    rawText (s.toList.flatMap escapeChar ++ '"' :: input) = (readText s, some input) := by
  simp [rawText, stringParts_escape, joinParts_partOf, readText, Except.map]

/-! ### Numbers -/

/-- Whether a number that stands before a text ends there. -/
def EndsNumber (input : List Char) : Prop :=
  ∀ c ∈ input.head?, c.isDigit = false ∧ c ≠ '.' ∧ c ≠ 'e' ∧ c ≠ 'E'

theorem isDigit_of_mem_digitsOf {n : Nat} {c : Char} (h : c ∈ Decimal.digitsOf n) :
    c.isDigit = true :=
  Nat.isDigit_of_mem_toDigits (by decide) (by decide) h

theorem digitsOf_ne_nil (n : Nat) : Decimal.digitsOf n ≠ [] :=
  Nat.toDigits_ne_nil

theorem takeWhile_digitsOf (n : Nat) {input : List Char} (h : EndsNumber input) :
    (Decimal.digitsOf n ++ input).takeWhile Char.isDigit = Decimal.digitsOf n := by
  rw [List.takeWhile_append_of_pos fun _ => isDigit_of_mem_digitsOf]
  cases input with
  | nil => simp
  | cons c input => simp [(h c rfl).1]

theorem dropWhile_digitsOf (n : Nat) {input : List Char} (h : EndsNumber input) :
    (Decimal.digitsOf n ++ input).dropWhile Char.isDigit = input := by
  rw [List.dropWhile_append_of_pos fun _ => isDigit_of_mem_digitsOf]
  cases input with
  | nil => simp
  | cons c input => simp [(h c rfl).1]

theorem leadingDigits_append (n : Nat) {input : List Char} (h : EndsNumber input) :
    leadingDigits (Decimal.digitsOf n ++ input) = leadingDigits (Decimal.digitsOf n) := by
  have hnil : EndsNumber [] := by simp [EndsNumber]
  have hself := takeWhile_digitsOf n hnil
  rw [List.append_nil] at hself
  simp only [leadingDigits, takeWhile_digitsOf n h, hself]

theorem leadingDigits_digitsOf (n : Nat) :
    leadingDigits (Decimal.digitsOf n) = (Decimal.digitsOf n).map fun c => c.toNat - 48 := by
  have hnil : EndsNumber [] := by simp [EndsNumber]
  have h := takeWhile_digitsOf n hnil
  rw [List.append_nil] at h
  rw [leadingDigits, h]
  rfl

theorem digitsOf_eq (n : Nat) :
    Decimal.digitsOf n =
      if n < 10 then [n.digitChar] else Decimal.digitsOf (n / 10) ++ [(n % 10).digitChar] :=
  Nat.toDigits_eq_if (by decide)

theorem toNat_digitChar {n : Nat} (h : n < 10) : n.digitChar.toNat - 48 = n :=
  Nat.toNat_digitChar_sub_48_of_lt_ten h

theorem digitsValue_digitsOf (n : Nat) :
    digitsValue (leadingDigits (Decimal.digitsOf n)) = n := by
  induction n using Nat.strongRecOn with
  | _ n ih =>
    rw [leadingDigits_digitsOf, digitsOf_eq]
    split_ifs with h
    · simp [digitsValue, toNat_digitChar h]
    · have hprefix := ih (n / 10) (by omega)
      rw [leadingDigits_digitsOf] at hprefix
      rw [List.map_append, digitsValue, List.foldl_append, ← digitsValue, hprefix]
      simp only [List.map_cons, List.map_nil, List.foldl_cons, List.foldl_nil,
        toNat_digitChar (Nat.mod_lt n (by decide : 0 < 10))]
      omega

/-- The digits of a number do not start with a zero, but for zero itself. -/
theorem leadingDigits_digitsOf_cases (n : Nat) :
    (∃ d, leadingDigits (Decimal.digitsOf n) = [d]) ∨
      ∃ d rest, leadingDigits (Decimal.digitsOf n) = (d + 1) :: rest := by
  induction n using Nat.strongRecOn with
  | _ n ih =>
    rw [leadingDigits_digitsOf, digitsOf_eq]
    split_ifs with h
    · exact .inl ⟨n, by simp [toNat_digitChar h]⟩
    · right
      have hprefix := ih (n / 10) (by omega)
      have hvalue := digitsValue_digitsOf (n / 10)
      rw [List.map_append, ← leadingDigits_digitsOf]
      obtain ⟨d, hd⟩ | ⟨d, rest, hd⟩ := hprefix
      · rw [hd] at hvalue ⊢
        simp only [digitsValue, List.foldl_cons, List.foldl_nil] at hvalue
        obtain ⟨m, rfl⟩ : ∃ m, d = m + 1 := ⟨d - 1, by omega⟩
        exact ⟨m, _, rfl⟩
      · rw [hd]
        exact ⟨d, _, rfl⟩

theorem digits_digitsOf (n : Nat) {input : List Char} (h : EndsNumber input) :
    digits (Decimal.digitsOf n ++ input) =
      .ok (leadingDigits (Decimal.digitsOf n), input) := by
  have hafter : afterDigits (Decimal.digitsOf n ++ input) = input := dropWhile_digitsOf n h
  have hlead := leadingDigits_append n h
  have hne : leadingDigits (Decimal.digitsOf n) ≠ [] := by
    rw [leadingDigits_digitsOf]
    simpa using digitsOf_ne_nil n
  obtain ⟨d, ds, hd⟩ := List.exists_cons_of_ne_nil hne
  obtain ⟨c, cs, hc⟩ := List.exists_cons_of_ne_nil
    (List.append_ne_nil_of_left_ne_nil (digitsOf_ne_nil n) input)
  rw [hc] at hafter hlead ⊢
  simp only [digits, hlead, hafter, hd]

theorem wholeDigits_digitsOf (n : Nat) {input : List Char} (h : EndsNumber input) :
    wholeDigits (Decimal.digitsOf n ++ input) =
      .ok (leadingDigits (Decimal.digitsOf n), input) := by
  rw [wholeDigits, digits_digitsOf n h]
  obtain ⟨d, hd⟩ | ⟨d, rest, hd⟩ := leadingDigits_digitsOf_cases n <;> rw [hd]
  · cases d <;> rfl
  · rfl

/-- The digits of a natural number are read back as one literal. -/
theorem rawNumber_digitsOf (negative : Bool) (n : Nat) {input : List Char}
    (h : EndsNumber input) :
    rawNumber negative (Decimal.digitsOf n ++ input) =
      (.number { negative, whole := leadingDigits (Decimal.digitsOf n) } none, some input) := by
  have hfraction : fractionDigits input = .ok (none, input) := by
    unfold fractionDigits
    split
    · exact absurd rfl (h '.' rfl).2.1
    · rfl
  have hexponent : exponentDigits input = .ok (none, input) := by
    cases input with
    | nil => rfl
    | cons c input =>
      obtain ⟨-, -, hsmall, hcapital⟩ := h c rfl
      simp [exponentDigits, hsmall, hcapital]
  have hliteral : numberLiteral negative (Decimal.digitsOf n ++ input) =
      .ok ({ negative, whole := leadingDigits (Decimal.digitsOf n) }, input) := by
    rw [numberLiteral, wholeDigits_digitsOf n h]
    simp only [bind, Except.bind, hfraction, hexponent, pure, Except.pure]
  rw [rawNumber, hliteral]

/-! ### Values -/

/-- Whether the text of a value is read back as that value, in either spacing, when the steps
suffice and no number runs on into the text after it. -/
def ReadBack (value : Json) : Prop :=
  ∀ (spacing : Spacing) (fuel : Nat) (input : List Char),
    (characters spacing value).length ≤ fuel → EndsNumber input →
      rawValue fuel (characters spacing value ++ input) = (value.toRaw, some input)

theorem endsNumber_cons {c : Char} (h : c.isDigit = false ∧ c ≠ '.' ∧ c ≠ 'e' ∧ c ≠ 'E')
    (input : List Char) : EndsNumber (c :: input) := by
  rintro _ ⟨⟩
  exact h

/-- No number runs on into a gap before a bracket or comma. -/
theorem endsNumber_gap (spacing : Spacing) {c : Char}
    (h : c.isDigit = false ∧ c ≠ '.' ∧ c ≠ 'e' ∧ c ≠ 'E') (input : List Char) :
    EndsNumber (spacing.gap ++ c :: input) := by
  cases spacing with
  | compact => exact endsNumber_cons h input
  | indented depth => exact endsNumber_cons (by decide) _

theorem rawValue_append {blanks : List Char} (h : ∀ c ∈ blanks, isJsonBlank c = true)
    (fuel : Nat) (input : List Char) :
    rawValue fuel (blanks ++ input) = rawValue fuel input := by
  cases fuel with
  | zero => rfl
  | succ fuel => rw [rawValue, rawValue, skipBlanks_append h]

theorem rawValue_digit {c : Char} (hc : c.isDigit = true) (fuel : Nat) (input : List Char) :
    rawValue (fuel + 1) (c :: input) = rawNumber false (c :: input) := by
  rw [rawValue, skipBlanks_cons (isJsonBlank_of_isDigit hc)]
  dsimp only
  split
  all_goals first | exact absurd hc (by decide) | rw [if_pos hc]

theorem intText_eq (n : Int) :
    intText n = if n < 0 then '-' :: Decimal.digitsOf n.natAbs else Decimal.digitsOf n.natAbs := by
  unfold intText
  split_ifs <;> rfl

theorem readBack_int (n : Int) : ReadBack (int n) := by
  intro spacing fuel input hfuel hinput
  rw [characters, intText_eq] at hfuel ⊢
  rw [toRaw, intLiteral]
  have hpositive : ∃ c cs, Decimal.digitsOf n.natAbs = c :: cs :=
    List.exists_cons_of_ne_nil (digitsOf_ne_nil _)
  obtain ⟨c, cs, hc⟩ := hpositive
  obtain ⟨fuel, rfl⟩ : ∃ m, fuel = m + 1 :=
    ⟨fuel - 1, by split_ifs at hfuel <;> simp [hc] at hfuel <;> omega⟩
  split_ifs with hn
  · rw [List.cons_append, rawValue, skipBlanks_cons (by decide)]
    simp [rawNumber_digitsOf true n.natAbs hinput, hn]
  · have hdigit : c.isDigit = true := isDigit_of_mem_digitsOf (by rw [hc]; simp)
    have hnumber := rawNumber_digitsOf false n.natAbs hinput
    rw [hc, List.cons_append] at hnumber ⊢
    rw [rawValue_digit hdigit, hnumber]
    simp [hn]

theorem readBack_text (s : String) : ReadBack (text s) := by
  intro spacing fuel input hfuel _
  obtain ⟨fuel, rfl⟩ : ∃ m, fuel = m + 1 :=
    ⟨fuel - 1, by simp [characters, quote] at hfuel; omega⟩
  rw [characters, quote_append, rawValue, skipBlanks_cons (by decide)]
  simp [rawText_escape, toRaw]

theorem Fits.opens {depth : Nat} {value : Json} (h : Fits depth value) (spacing : Spacing) :
    ∃ c cs, characters spacing value = c :: cs ∧ isJsonBlank c = false ∧ c ≠ ']' := by
  cases h with
  | null => exact ⟨_, _, rfl, rfl, by decide⟩
  | bool value => cases value <;> exact ⟨_, _, rfl, rfl, by decide⟩
  | text s => exact ⟨_, _, rfl, rfl, by decide⟩
  | int =>
    rename_i n _ _
    obtain ⟨c, cs, hc⟩ := List.exists_cons_of_ne_nil (digitsOf_ne_nil n.natAbs)
    have hdigit : c.isDigit = true := isDigit_of_mem_digitsOf (by rw [hc]; simp)
    rw [characters, intText_eq, hc]
    split_ifs with hn
    · exact ⟨_, _, rfl, rfl, by decide⟩
    · refine ⟨c, cs, rfl, isJsonBlank_of_isDigit hdigit, ?_⟩
      rintro rfl
      exact absurd hdigit (by decide)
  | list =>
    rename_i items _
    cases items <;> exact ⟨_, _, rfl, rfl, by decide⟩
  | object =>
    rename_i fields _
    cases fields <;> exact ⟨_, _, rfl, rfl, by decide⟩

theorem rawItems_characters {depth : Nat} (inner outer : Spacing) (input : List Char)
    {rest : List Json} : ∀ (first : Json) (fuel : Nat),
    (∀ item ∈ first :: rest, Fits depth item) → (∀ item ∈ first :: rest, ReadBack item) →
    (characters inner first ++ itemCharacters inner rest).length < fuel →
    rawItems fuel (characters inner first ++
        (itemCharacters inner rest ++ (outer.gap ++ ']' :: input))) =
      (((first :: rest).map toRaw, .closed), some input) := by
  induction rest with
  | nil =>
    intro first fuel _ hread hfuel
    obtain ⟨fuel, rfl⟩ : ∃ m, fuel = m + 1 := ⟨fuel - 1, by omega⟩
    have hfirst := hread first (by simp) inner fuel (outer.gap ++ ']' :: input)
      (by simp at hfuel; omega) (endsNumber_gap outer (by decide) input)
    rw [itemCharacters, List.nil_append, rawItems, hfirst]
    simp [skipBlanks_cons (c := ']') (by decide)]
  | cons second rest ih =>
    intro first fuel hfits hread hfuel
    obtain ⟨fuel, rfl⟩ : ∃ m, fuel = m + 1 := ⟨fuel - 1, by omega⟩
    simp only [itemCharacters, List.length_append, List.length_cons] at hfuel
    have hfirst := hread first (by simp) inner fuel
      (itemCharacters inner (second :: rest) ++ (outer.gap ++ ']' :: input))
      (by omega) (endsNumber_cons (by decide) _)
    have hrest := ih second fuel
      (fun item hitem => hfits item (List.mem_cons_of_mem _ hitem))
      (fun item hitem => hread item (List.mem_cons_of_mem _ hitem))
      (by simp only [List.length_append]; omega)
    obtain ⟨c, cs, hc, hblank, hbracket⟩ := (hfits second (by simp)).opens inner
    rw [rawItems, hfirst, itemCharacters]
    rw [hc, List.cons_append] at hrest
    simp [skipBlanks_cons (c := ',') (by decide), hc, skipBlanks_cons hblank, hbracket, hrest]

theorem rawFields_characters (inner outer : Spacing) (input : List Char)
    {rest : List (String × Json)} : ∀ (name : String) (first : Json) (fuel : Nat),
    (∀ field ∈ (name, first) :: rest, ReadBack field.2) →
    (characters inner first ++ fieldCharacters inner rest).length < fuel →
    rawFields fuel (name.toList.flatMap escapeChar ++ '"' :: (inner.colon ++
        (characters inner first ++
          (fieldCharacters inner rest ++ (outer.gap ++ '\x7d' :: input))))) =
      ((((name, first) :: rest).map fun field => (readText field.1, field.2.toRaw), none),
        some input) := by
  obtain ⟨blanks, hcolon, hblanks⟩ := exists_colon_eq inner
  induction rest with
  | nil =>
    intro name first fuel hread hfuel
    obtain ⟨fuel, rfl⟩ : ∃ m, fuel = m + 1 := ⟨fuel - 1, by omega⟩
    have hfirst := hread (name, first) (by simp) inner fuel (outer.gap ++ '\x7d' :: input)
      (by simp at hfuel; dsimp only; omega) (endsNumber_gap outer (by decide) input)
    rw [fieldCharacters, List.nil_append, hcolon, List.cons_append, rawFields, rawText_escape]
    simp [skipBlanks_cons (c := ':') (by decide), rawValue_append hblanks, hfirst,
      skipBlanks_cons (c := '\x7d') (by decide)]
  | cons second rest ih =>
    obtain ⟨next, second⟩ := second
    intro name first fuel hread hfuel
    obtain ⟨fuel, rfl⟩ : ∃ m, fuel = m + 1 := ⟨fuel - 1, by omega⟩
    simp only [fieldCharacters, List.length_append, List.length_cons] at hfuel
    have hfirst := hread (name, first) (by simp) inner fuel
      (fieldCharacters inner ((next, second) :: rest) ++ (outer.gap ++ '\x7d' :: input))
      (by dsimp only; omega) (endsNumber_cons (by decide) _)
    have hrest := ih next second fuel
      (fun field hfield => hread field (List.mem_cons_of_mem _ hfield))
      (by simp only [List.length_append]; omega)
    rw [hcolon, List.cons_append, rawFields, rawText_escape]
    simp only [Option.map_some, skipBlanks_cons (c := ':') (by decide)]
    rw [rawValue_append hblanks, hfirst, fieldCharacters]
    simp [skipBlanks_cons (c := ',') (by decide), quote_append,
      skipBlanks_cons (c := '"') (by decide), hrest]

/-- The text of every value without doubles is read back as that value, and the text after it
is left. -/
theorem Fits.readBack {depth : Nat} {value : Json} (h : Fits depth value) : ReadBack value := by
  induction h with
  | null =>
    intro spacing fuel input hfuel _
    obtain ⟨fuel, rfl⟩ : ∃ m, fuel = m + 1 := ⟨fuel - 1, by simp [characters] at hfuel; omega⟩
    simp [characters, rawValue, skipBlanks_cons (c := 'n') (by decide), literalWord, word, toRaw]
  | bool value =>
    intro spacing fuel input hfuel _
    obtain ⟨fuel, rfl⟩ : ∃ m, fuel = m + 1 :=
      ⟨fuel - 1, by cases value <;> simp [characters] at hfuel <;> omega⟩
    cases value
    · simp [characters, rawValue, skipBlanks_cons (c := 'f') (by decide), literalWord, word,
        toRaw]
    · simp [characters, rawValue, skipBlanks_cons (c := 't') (by decide), literalWord, word,
        toRaw]
  | int => exact readBack_int _
  | text s => exact readBack_text s
  | @list depth items inner ih =>
    intro spacing fuel input hfuel _
    cases items with
    | nil =>
      obtain ⟨fuel, rfl⟩ : ∃ m, fuel = m + 1 := ⟨fuel - 1, by simp [characters] at hfuel; omega⟩
      simp [characters, rawValue, skipBlanks_cons (c := '[') (by decide),
        skipBlanks_cons (c := ']') (by decide), toRaw]
    | cons first rest =>
      simp only [characters, List.length_cons, List.length_append] at hfuel
      obtain ⟨fuel, rfl⟩ : ∃ m, fuel = m + 1 := ⟨fuel - 1, by omega⟩
      obtain ⟨c, cs, hc, hblank, hbracket⟩ := (inner first (by simp)).opens spacing.deeper
      have hitems := rawItems_characters spacing.deeper spacing input first fuel inner ih
        (by simp only [List.length_append]; omega)
      rw [hc, List.cons_append] at hitems
      rw [characters, hc]
      simp [rawValue, skipBlanks_cons (c := '[') (by decide), skipBlanks_cons hblank, hbracket,
        hitems, toRaw]
  | @object depth fields inner ih =>
    intro spacing fuel input hfuel _
    cases fields with
    | nil =>
      obtain ⟨fuel, rfl⟩ : ∃ m, fuel = m + 1 := ⟨fuel - 1, by simp [characters] at hfuel; omega⟩
      simp [characters, rawValue, skipBlanks_cons (c := '\x7b') (by decide),
        skipBlanks_cons (c := '\x7d') (by decide), toRaw]
    | cons field rest =>
      obtain ⟨name, first⟩ := field
      simp only [characters, List.length_cons, List.length_append] at hfuel
      obtain ⟨fuel, rfl⟩ : ∃ m, fuel = m + 1 := ⟨fuel - 1, by omega⟩
      have hfields := rawFields_characters spacing.deeper spacing input name first fuel ih
        (by simp only [List.length_append]; omega)
      rw [Spacing.colon_deeper] at hfields
      simp [characters, rawValue, skipBlanks_cons (c := '\x7b') (by decide), quote_append,
        skipBlanks_cons (c := '"') (by decide), hfields, toRaw]

/-- Decoding the text of a value is decoding the value. -/
theorem decodeText_characters {α : Type} {depth : Nat} {value : Json} (h : Fits depth value)
    (decode : Decoder α) (spacing : Spacing) :
    decodeText decode (String.ofList (characters spacing value)) = decode value.toRaw := by
  have hread := h.readBack spacing (2 * (characters spacing value).length + 2) [] (by omega)
    (by simp [EndsNumber])
  rw [List.append_nil] at hread
  have hdocument : Raw.ofText (String.ofList (characters spacing value)) =
      ⟨value.toRaw, false⟩ := by
    simp [Raw.ofText, hread, skipBlanks]
  rw [decodeText, hdocument]
  cases decode value.toRaw <;> rfl

/-! ### Values that are read whole -/

theorem exists_value?_intLiteral {n : Int} (low : -(Nat.pow 2 63 : Int) ≤ n)
    (high : n ≤ maxSignificand) : ∃ value, (intLiteral n).value? = some value := by
  have hwhole : digitsValue (intLiteral n).whole = n.natAbs := digitsValue_digitsOf n.natAbs
  have hsmall : n.natAbs ≤ maxSignificand := by
    have h63 : Nat.pow 2 63 ≤ maxSignificand := by decide
    omega
  have hplain : (intLiteral n).fraction.isNone ∧ (intLiteral n).exponent.isNone := ⟨rfl, rfl⟩
  rw [NumberLiteral.value?, hwhole, if_pos ⟨hplain.1, hplain.2, hsmall⟩]
  split_ifs <;> exact ⟨_, rfl⟩

theorem value?_intLiteral_nat {n : Nat} (h : n ≤ maxSignificand) :
    (intLiteral n).value? = some (.natural n) := by
  have hwhole : digitsValue (intLiteral n).whole = n := digitsValue_digitsOf n
  rw [NumberLiteral.value?, hwhole]
  simp [intLiteral, h]

theorem readItems_eq_none {depth : Nat} : ∀ {items : List Raw},
    (∀ item ∈ items, item.readProblem? depth = none) → readItems depth items = none
  | [], _ => rfl
  | item :: items, h => by
    rw [List.forall_mem_cons] at h
    rw [readItems, h.1, readItems_eq_none h.2]
    rfl

theorem readFields_eq_none {depth : Nat} : ∀ {fields : List (String × Json)},
    (∀ field ∈ fields, field.2.toRaw.readProblem? depth = none) →
      readFields depth (fields.map fun field => (readText field.1, field.2.toRaw)) = none
  | [], _ => rfl
  | field :: fields, h => by
    rw [List.forall_mem_cons] at h
    rw [List.map_cons, readFields, h.1, readFields_eq_none h.2]
    rfl

/-- Nothing is wrong with a value that fits, when it is read whole. -/
theorem Fits.readProblem?_toRaw {depth : Nat} {value : Json} (h : Fits depth value) :
    value.toRaw.readProblem? depth = none := by
  induction h with
  | null => simp [toRaw, Raw.readProblem?]
  | bool value => simp [toRaw, Raw.readProblem?]
  | int low high =>
    obtain ⟨value, hvalue⟩ := exists_value?_intLiteral low high
    simp [toRaw, Raw.readProblem?, numberValue, hvalue]
  | text s => simp [toRaw, Raw.readProblem?, readText]
  | list inner ih =>
    simp [toRaw, Raw.readProblem?, readItems_eq_none (List.forall_mem_map.mpr ih),
      ListEnd.problem?]
  | object inner ih =>
    simp [toRaw, Raw.readProblem?, readFields_eq_none ih]

end Json

end NodeLink
