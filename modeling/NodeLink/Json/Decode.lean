import NodeLink.Json.Raw

/-! # Decoding JSON texts

A decoder turns a raw value into a value of some type, or says what is wrong with it.  It
walks the raw value in the order of the text, so that of several problems the first one
counts.  Records are described by a `Shape`: their fields in order, with the names each goes
by.  A record may be an object, in any order, with unknown fields skipped, or a list of its
fields. -/

namespace NodeLink.Json

/-- Turns a raw value into a value, or says what is wrong. -/
abbrev Decoder (α : Type) := Raw → Except Problem α

/-! ### Scalars -/

/-- The value of a number that is read. -/
def numberValue (literal : NumberLiteral) : Option Problem → Except Problem Number
  | some problem => .error problem
  | none =>
    match literal.value? with
    | some value => .ok value
    | none => .error .malformed

/-- What is wrong with a value of the wrong kind: what is wrong with it as a scalar, or that
it is of the wrong kind. -/
def Raw.refusal : Raw → Problem
  | .broken problem => problem
  | .number literal fault =>
    match numberValue literal fault with
    | .error problem => problem
    | .ok _ => .mismatch
  | .text value =>
    match value.content with
    | .error problem => problem
    | .ok _ => .mismatch
  | _ => .mismatch

/-- A truth value. -/
def Decoder.bool : Decoder Bool
  | .bool value => .ok value
  | raw => .error raw.refusal

/-- A string. -/
def Decoder.string : Decoder String
  | .text value => value.content
  | raw => .error raw.refusal

/-- A double; integers count as doubles. -/
def Decoder.double : Decoder Float
  | .number literal fault => (numberValue literal fault).map Number.toFloat
  | raw => .error raw.refusal

/-- A natural number below a bound, written as an integer. -/
def Decoder.natBelow (bound : Nat) : Decoder Nat
  | .number literal fault => do
    match ← numberValue literal fault with
    | .natural n => if n < bound then return n else .error .mismatch
    | _ => .error .mismatch
  | raw => .error raw.refusal

/-- A natural number of thirty-two bits. -/
def Decoder.nat32 : Decoder Nat := Decoder.natBelow (Nat.pow 2 32)

/-- A natural number of sixty-four bits. -/
def Decoder.nat64 : Decoder Nat := Decoder.natBelow (Nat.pow 2 64)

/-- A value that may be `null`. -/
def Decoder.nullable {α : Type} (decode : Decoder α) : Decoder (Option α)
  | .null => .ok none
  | raw => (decode raw).map some

/-! ### Skipped values -/

mutual

/-- What is wrong with a value that is skipped. -/
def Raw.skipProblem? : Raw → Option Problem
  | .broken problem => some problem
  | .null => none
  | .bool _ => none
  | .number _ fault => fault.map fun _ => .malformed
  | .text value => value.fault
  | .list items finish => (skipItems items).or finish.problem?
  | .object fields fault => (skipFields fields).or fault

/-- What is wrong with the items of a list that is skipped. -/
def skipItems : List Raw → Option Problem
  | [] => none
  | item :: rest => item.skipProblem?.or (skipItems rest)

/-- What is wrong with the fields of an object that is skipped. -/
def skipFields : List (RawText × Raw) → Option Problem
  | [] => none
  | (name, value) :: rest => name.fault.or (value.skipProblem?.or (skipFields rest))

end

/-- Skips a value. -/
def skip : Decoder Unit := fun raw =>
  match raw.skipProblem? with
  | some problem => .error problem
  | none => .ok ()

/-! ### Values read whole before they are decoded -/

mutual

/-- What is wrong with a value that is read whole.  The first argument is the number of
containers that may still be entered. -/
def Raw.readProblem? (depth : Nat) : Raw → Option Problem
  | .broken problem => some problem
  | .null => none
  | .bool _ => none
  | .number literal fault =>
    match numberValue literal fault with
    | .error problem => some problem
    | .ok _ => none
  | .text value =>
    match value.content with
    | .error problem => some problem
    | .ok _ => none
  | .list items finish =>
    if depth = 0 then some .malformed
    else (readItems (depth - 1) items).or finish.problem?
  | .object fields fault =>
    if depth = 0 then some .malformed
    else (readFields (depth - 1) fields).or fault

/-- What is wrong with the items of a list that is read whole. -/
def readItems (depth : Nat) : List Raw → Option Problem
  | [] => none
  | item :: rest => (item.readProblem? depth).or (readItems depth rest)

/-- What is wrong with the fields of an object that is read whole. -/
def readFields (depth : Nat) : List (RawText × Raw) → Option Problem
  | [] => none
  | (name, value) :: rest =>
    match name.content with
    | .error problem => some problem
    | .ok _ => (value.readProblem? depth).or (readFields depth rest)

end

/-- Reads a value whole. -/
def readWhole (depth : Nat) : Decoder Unit := fun raw =>
  match raw.readProblem? depth with
  | some problem => .error problem
  | none => .ok ()

/-! ### Lists -/

/-- The end of a list whose items have all been read. -/
def endOfList (finish : ListEnd) : Except Problem Unit :=
  match finish.problem? with
  | some problem => .error problem
  | none => .ok ()

/-- A list of values. -/
def Decoder.listOf {α : Type} (decode : Decoder α) : Decoder (List α)
  | .list items finish => do
    let values ← items.mapM decode
    endOfList finish
    return values
  | raw => .error raw.refusal

/-! ### Records -/

/-- Whether a value is decoded while its text is read, or was read whole before. -/
inductive Mode where
  | streamed
  | whole
  deriving DecidableEq, Repr, Inhabited

/-- What is wrong with a list that has more items than a record has fields: in a text that is
still being read the list should have ended, in a value read before it has the wrong shape. -/
def Mode.surplus : Mode → Problem
  | streamed => .malformed
  | whole => .mismatch

/-- A member of a record type: the names its field goes by, whether an object must have it,
and how its value enters the record. -/
structure Member (σ : Type) where
  names : List String
  required : Bool
  read : Raw → σ → Except Problem σ

/-- The member whose value is stored by `set`. -/
def Member.of {σ α : Type} (names : List String) (required : Bool) (decode : Decoder α)
    (set : α → σ → σ) : Member σ where
  names
  required
  read raw record := (decode raw).map fun value => set value record

/-- A record type: the record before any field is read, its members in order, and whether a
list may leave out the last of them. -/
structure Shape (σ : Type) where
  start : σ
  members : List (Member σ)
  shortList : Bool

namespace Shape

variable {σ : Type} (shape : Shape σ)

/-- Reads the fields of an object; `seen` holds the positions of those read before. -/
def readObject (record : σ) (seen : List Nat) :
    List (RawText × Raw) → Except Problem (σ × List Nat)
  | [] => .ok (record, seen)
  | (name, value) :: rest => do
    let name ← name.content
    match shape.members.findIdx? fun member => member.names.contains name with
    | none =>
      skip value
      readObject record seen rest
    | some index =>
      if seen.contains index then .error .mismatch
      else
        match shape.members[index]? with
        | some member => readObject (← member.read value record) (index :: seen) rest
        | none => .error .mismatch

/-- Whether every field that an object must have was read. -/
def complete (seen : List Nat) : Bool :=
  shape.members.zipIdx.all fun (member, index) => !member.required || seen.contains index

/-- Reads the fields of a list in order. -/
def readList (surplus : Problem) (record : σ) :
    List (Member σ) → List Raw → ListEnd → Except Problem σ
  | [], [], .afterComma _ => .error .malformed
  | [], [], finish => do
    endOfList finish
    return record
  | [], _ :: _, _ => .error surplus
  | member :: members, item :: items, finish => do
    readList surplus (← member.read item record) members items finish
  | _ :: _, [], finish => do
    endOfList finish
    if shape.shortList then return record else .error .mismatch

/-- Decodes a record. -/
def decode (mode : Mode) : Decoder σ
  | .object fields fault => do
    let (record, seen) ← shape.readObject shape.start [] fields
    match fault with
    | some problem => .error problem
    | none => if shape.complete seen then return record else .error .mismatch
  | .list items finish => shape.readList mode.surplus shape.start shape.members items finish
  | raw => .error raw.refusal

end Shape

/-! ### Texts -/

/-- Decodes a whole text, after which only blanks may stand. -/
def decodeText {α : Type} (decode : Decoder α) (text : String) : Except Problem α :=
  let document := Raw.ofText text
  match decode document.value with
  | .error problem => .error problem
  | .ok value => if document.trailing then .error .malformed else .ok value

end NodeLink.Json
