import NodeLink.CommandLine.Execute

/-! # A whole run

A run reads the input and the config file, compiles, and prints the snapshot or writes the
drawing.  Files are reached through `Files`, so that a run is the same over a real file system
and over a directory held as a value. -/

namespace NodeLink.CommandLine

open NodeLink.Json (Problem)
open NodeLink.Random (Stream)

/-- Why a file cannot be read or written. -/
inductive FileError where
  | notFound
  | notDirectory
  | isDirectory
  | notText
  | nameTooLong
  | nameWithNul
  | other (text : String)
  deriving DecidableEq, Repr, Inhabited

/-- The words for what is wrong with a file. -/
def FileError.describe : FileError → String
  | notFound => "No such file or directory (os error 2)"
  | notDirectory => "Not a directory (os error 20)"
  | isDirectory => "Is a directory (os error 21)"
  | notText => "stream did not contain valid UTF-8"
  | nameTooLong => "File name too long (os error 36)"
  | nameWithNul => "file name contained an unexpected NUL byte"
  | other text => text

/-- How files are read and written. -/
structure Files (m : Type → Type) where
  read : String → m (Except FileError String)
  write : String → String → m (Except FileError Unit)

/-- Why a run fails. -/
inductive RunError where
  | read (path : String) (error : FileError)
  | write (path : String) (error : FileError)
  | config (path : String) (problem : Problem)
  | compile (error : CompileError)
  deriving DecidableEq, Repr, Inhabited

/-- The words for what is wrong with a config file. -/
def problemText : Problem → String
  | .malformed => "not valid JSON"
  | .truncated => "unexpected end of the file"
  | .mismatch => "unexpected value"

/-- The lines to print for a failed run. -/
def RunError.messages : RunError → List String
  | read path error => ["error: cannot read '" ++ path ++ "': " ++ error.describe]
  | write path error => ["error: cannot write '" ++ path ++ "': " ++ error.describe]
  | config path problem => ["error: invalid config '" ++ path ++ "': " ++ problemText problem]
  | compile error => error.messages

variable {m : Type → Type} [Monad m]

/-- Reads the config file, if there is one. -/
def loadConfig (files : Files m) : Option String → ExceptT RunError m Config
  | none => return {}
  | some path => do
    match ← files.read path with
    | .error error => throw (.read path error)
    | .ok text =>
      match Config.ofJson text with
      | .error problem => throw (.config path problem)
      | .ok config => return config

/-- Runs what the arguments ask for; the result is the text to print, and `fresh` are the random
numbers of a run without a seed. -/
def run (files : Files m) (options : Options) (fresh : Stream) : ExceptT RunError m String := do
  match ← files.read options.input with
  | .error error => throw (.read options.input error)
  | .ok source =>
    let config ← loadConfig files options.config
    match execute options source config fresh with
    | .error error => throw (.compile error)
    | .ok (.json text) => return text ++ "\n"
    | .ok (.svg text) =>
      match options.svg with
      | none => return ""
      | some path =>
        match ← files.write path text with
        | .error error => throw (.write path error)
        | .ok () => return ""

end NodeLink.CommandLine
