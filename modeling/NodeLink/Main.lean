import NodeLink.CommandLine.Run

/-! # The command line

Reads the arguments, runs over the real file system, prints the result or the problems, and
ends with a status: zero after success, one after a failed run, two for bad arguments. -/

namespace NodeLink.CommandLine

/-- The words for bad arguments. -/
def ArgumentError.describe : ArgumentError → String
  | unknownArgument => "error: unexpected argument"
  | invalidValue => "error: a value is required"
  | badNumber => "error: invalid number"
  | missingInput => "error: the input file is missing"
  | repeated => "error: an option is given twice"
  | surplusValue => "error: unexpected value for an option"
  | help => usage
  | version => "arna 0.1.0"
where
  /-- What the program is for and what it is called with. -/
  usage : String :=
    "Compile and lay out an arna graph\n\n" ++
    "Usage: arna [OPTIONS] <INPUT>\n\n" ++
    "Arguments:\n" ++
    "  <INPUT>  Input `.arna` file\n\n" ++
    "Options:\n" ++
    "      --seed <SEED>         Seed for the layout RNG (random when omitted)\n" ++
    "      --bundle              Bundle edges even if the graph does not ask for it\n" ++
    "      --config <FILE.json>  JSON file with layout/bundling parameters\n" ++
    "      --svg <OUT>           Write an SVG drawing here instead of printing JSON\n" ++
    "      --width <WIDTH>       SVG width in pixels\n" ++
    "      --height <HEIGHT>     SVG height in pixels\n" ++
    "  -h, --help                Print help\n" ++
    "  -V, --version             Print version"

/-- What is wrong with a file, from the error of the system. -/
def FileError.ofSystem : IO.Error → FileError
  | .noFileOrDirectory .. => .notFound
  | .inappropriateType _ 20 _ => .notDirectory
  | .inappropriateType _ 21 _ => .isDirectory
  | error => .other error.toString

/-- Reads a file of the system. -/
def readFile (path : String) : IO (Except FileError String) := do
  try
    match String.fromUTF8? (← IO.FS.readBinFile path) with
    | some text => return .ok text
    | none => return .error .notText
  catch error => return .error (FileError.ofSystem error)

/-- Writes a file of the system. -/
def writeFile (path text : String) : IO (Except FileError Unit) := do
  try
    IO.FS.writeFile path text
    return .ok ()
  catch error => return .error (FileError.ofSystem error)

/-- The files of the system. -/
def systemFiles : Files IO := ⟨readFile, writeFile⟩

/-- A key of random words. -/
def randomKey : IO Random.Key :=
  (Vector.replicate 8 (0 : UInt32)).mapM fun _ => do
    return UInt32.ofNat (← IO.rand 0 (Nat.pow 2 32 - 1))

end NodeLink.CommandLine

open NodeLink.CommandLine in
/-- Runs the program. -/
def main (arguments : List String) : IO UInt32 := do
  match Options.ofArguments arguments with
  | .error .help =>
    IO.println ArgumentError.help.describe
    return 0
  | .error .version =>
    IO.println ArgumentError.version.describe
    return 0
  | .error error =>
    IO.eprintln error.describe
    return 2
  | .ok options =>
    match ← (run systemFiles options (.ofKey (← randomKey))).run with
    | .ok text =>
      IO.print text
      return 0
    | .error error =>
      for line in error.messages do
        IO.eprintln line
      return 1
