import NodeLink.Decimal.Reader

/-! # Command-line arguments

One positional argument, the input, and a few options.  An option's value stands in the next
argument or after an equal sign; after `--` everything is positional.  Values are checked when
the next argument that is known starts, or at the end, so an unknown argument is reported
before the value in front of it.  Every option may be given once. -/

namespace NodeLink.CommandLine

/-- What the arguments ask for. -/
structure Options where
  input : String
  seed : Option Nat := none
  bundle : Bool := false
  config : Option String := none
  svg : Option String := none
  width : Option Float := none
  height : Option Float := none

/-- Why arguments are not run. -/
inductive ArgumentError where
  /-- Nothing goes by this name, or there is one positional argument too many. -/
  | unknownArgument
  /-- A value is missing, or a path is empty. -/
  | invalidValue
  /-- A number cannot be read. -/
  | badNumber
  /-- There is no input. -/
  | missingInput
  /-- An option is given twice. -/
  | repeated
  /-- A switch is given a value. -/
  | surplusValue
  /-- Help is asked for. -/
  | help
  /-- The version is asked for. -/
  | version
  deriving DecidableEq, Repr, Inhabited

/-- An argument that has a value. -/
inductive Slot where
  | input
  | seed
  | config
  | svg
  | width
  | height
  deriving DecidableEq, Repr, Inhabited

/-- What has been read of the arguments. -/
structure State where
  /-- The value of an argument that is still to be checked; absent while it is awaited. -/
  pending : Option (Slot × Option String) := none
  /-- Whether the positional argument has been met. -/
  positional : Bool := false
  input : Option String := none
  seed : Option Nat := none
  bundle : Bool := false
  config : Option String := none
  svg : Option String := none
  width : Option Float := none
  height : Option Float := none

namespace State

/-- Whether an argument has its value already. -/
def isSet (state : State) : Slot → Bool
  | .input => state.input.isSome
  | .seed => state.seed.isSome
  | .config => state.config.isSome
  | .svg => state.svg.isSome
  | .width => state.width.isSome
  | .height => state.height.isSome

/-- A path, which must not be empty. -/
def path (value : String) : Except ArgumentError String :=
  if value.isEmpty then .error .invalidValue else .ok value

/-- A number, which must be readable. -/
def number {α : Type} (value : Option α) : Except ArgumentError α :=
  match value with
  | some value => .ok value
  | none => .error .badNumber

/-- Checks and stores the value of an argument. -/
def store (state : State) (slot : Slot) (value : String) : Except ArgumentError State :=
  match slot with
  | .input => return { state with input := ← path value }
  | .seed => return { state with seed := ← number (Decimal.readNatural? (Nat.pow 2 64) value) }
  | .config => return { state with config := ← path value }
  | .svg => return { state with svg := ← path value }
  | .width => return { state with width := ← number (Decimal.readDouble? value) }
  | .height => return { state with height := ← number (Decimal.readDouble? value) }

/-- Settles the pending argument, if there is one. -/
def settle (state : State) : Except ArgumentError State :=
  match state.pending with
  | none => .ok state
  | some (_, none) => .error .invalidValue
  | some (slot, some value) =>
    if state.isSet slot then .error .repeated
    else { state with pending := none }.store slot value

end State

/-- What an option's name stands for. -/
inductive Name where
  | valued (slot : Slot)
  | bundle
  | help
  | version

/-- The options by name. -/
def name? : String → Option Name
  | "seed" => some (.valued .seed)
  | "bundle" => some .bundle
  | "config" => some (.valued .config)
  | "svg" => some (.valued .svg)
  | "width" => some (.valued .width)
  | "height" => some (.valued .height)
  | "help" => some .help
  | "version" => some .version
  | _ => none

/-- The options by letter. -/
def letter? : Char → Option Name
  | 'h' => some .help
  | 'V' => some .version
  | _ => none

/-- Reads an option, with the value after its equal sign if there is one. -/
def State.option (state : State) (name : Option Name) (value : Option String) :
    Except ArgumentError State :=
  match name, value with
  | none, _ => .error .unknownArgument
  | some (.valued slot), value => do
    let state ← state.settle
    let state := { state with pending := some (slot, value) }
    if value.isSome then state.settle else return state
  | some _, some _ => .error .surplusValue
  | some .bundle, none => do
    let state ← state.settle
    if state.bundle then .error .repeated else return { state with bundle := true }
  | some .help, none => do
    let _ ← state.settle
    .error .help
  | some .version, none => do
    let _ ← state.settle
    .error .version

/-- Reads a positional argument. -/
def State.positionalArgument (state : State) (value : String) : Except ArgumentError State :=
  if state.positional then .error .unknownArgument
  else do
    let state ← state.settle
    return { state with pending := some (.input, some value), positional := true }

/-- Reads an argument that is no option: the value that is awaited, or a positional one. -/
def State.plainArgument (state : State) (value : String) : Except ArgumentError State :=
  match state.pending with
  | some (slot, none) => return { state with pending := some (slot, some value) }
  | _ => state.positionalArgument value

/-- The name of an option and the value after its equal sign. -/
def splitOption (text : List Char) : String × Option String :=
  let name := String.ofList (text.takeWhile (· ≠ '='))
  match text.dropWhile (· ≠ '=') with
  | _ :: value => (name, some (String.ofList value))
  | [] => (name, none)

/-- Reads the arguments one by one. -/
def State.readAll (state : State) : List String → Except ArgumentError State
  | [] => state.settle
  | argument :: rest => do
    match argument.toList with
    | ['-', '-'] => (← rest.foldlM State.positionalArgument state).settle
    | '-' :: '-' :: text =>
      let (name, value) := splitOption text
      (← state.option (name? name) value).readAll rest
    | '-' :: letter :: _ => (← state.option (letter? letter) none).readAll rest
    | _ => (← state.plainArgument argument).readAll rest

/-- What a list of arguments asks for. -/
def Options.ofArguments (arguments : List String) : Except ArgumentError Options := do
  let state ← State.readAll {} arguments
  match state.input with
  | none => .error .missingInput
  | some input =>
    return { input, seed := state.seed, bundle := state.bundle, config := state.config,
             svg := state.svg, width := state.width, height := state.height }

end NodeLink.CommandLine
