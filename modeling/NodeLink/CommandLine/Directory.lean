import NodeLink.CommandLine.Run

/-! # A directory as a value

A directory of files held in memory, with the answers that a file system gives: a path is
followed name by name, a name that is missing, too long, or no directory where one is needed
is an error, and a directory is neither read nor written as a file.  Outside it stand the
directories above and the root, which hold nothing but what is written there. -/

namespace NodeLink.CommandLine

/-- Where a file stands: the names on the way to it.  A way that leaves the directory starts
with `..`, once for each level, or with `/`. -/
abbrev Place := List String

/-- Files by their places. -/
structure Directory where
  files : List (Place × ByteArray)

/-- What a path leads to. -/
inductive Entry where
  | file (bytes : ByteArray)
  | directory
  /-- Nothing yet, in a directory that exists. -/
  | vacant

namespace Place

/-- Whether a place is the directory itself, one above it, or the root. -/
def isStart (place : Place) : Bool :=
  place.all (· = "..") || place = ["/"]

/-- The directory that a place is in; the root is in itself. -/
def parent (place : Place) : Place :=
  if place = ["/"] then place
  else if place.isStart then place ++ [".."]
  else place.dropLast

end Place

namespace Directory

/-- What stands at a place. -/
def entry (directory : Directory) (place : Place) : Entry :=
  match directory.files.find? fun file => file.1 = place with
  | some file => .file file.2
  | none =>
    if place.isStart || directory.files.any (fun file => place.isPrefixOf file.1) then .directory
    else .vacant

/-- The most bytes of one name. -/
def maxNameSize : Nat := 255

/-- The most bytes of a path. -/
def maxPathSize : Nat := 4095

/-- Follows the parts of a path from a place. -/
def follow (directory : Directory) (place : Place) : List String → Except FileError Place
  | [] => .ok place
  | part :: parts =>
    match directory.entry place with
    | .file _ => .error .notDirectory
    | .vacant => .error .notFound
    | .directory =>
      if part = "" ∨ part = "." then directory.follow place parts
      else if part = ".." then directory.follow place.parent parts
      else if maxNameSize < part.utf8ByteSize then .error .nameTooLong
      else directory.follow (place ++ [part]) parts

/-- What is wrong with a path whatever the directory holds. -/
def pathError? (path : String) : Option FileError :=
  if path.toList.contains '\x00' then some .nameWithNul
  else if path = "" then some .notFound
  else if maxPathSize < path.utf8ByteSize then some .nameTooLong
  else none

/-- Follows parts from where a path starts: the root if it starts with a slash. -/
def locate (directory : Directory) (path : String) (parts : List String) :
    Except FileError Place :=
  match pathError? path with
  | some error => .error error
  | none => directory.follow (if path.startsWith "/" then ["/"] else []) parts

/-- The parts of a path before its last part that is not empty. -/
def partsBeforeLast (path : String) : List String :=
  (((path.splitOn "/").reverse.dropWhile (· = "")).drop 1).reverse

/-- The text of a file. -/
def read (directory : Directory) (path : String) : Except FileError String := do
  match directory.entry (← directory.locate path (path.splitOn "/")) with
  | .vacant => .error .notFound
  | .directory => .error .isDirectory
  | .file bytes =>
    match String.fromUTF8? bytes with
    | some text => return text
    | none => .error .notText

/-- Writes a file, over one that is there or as a new one.  A slash at the end asks for a
directory, so the last name is not looked up then: what leads to it must exist, and that is
the only other error. -/
def write (directory : Directory) (path text : String) : Except FileError Directory := do
  if path.endsWith "/" then
    let _ ← directory.locate path (partsBeforeLast path ++ ["."])
    .error .isDirectory
  else
    let place ← directory.locate path (path.splitOn "/")
    match directory.entry place with
    | .directory => .error .isDirectory
    | .file _ | .vacant =>
      return { files :=
        (place, text.toUTF8) :: directory.files.filter fun file => file.1 ≠ place }

/-- Reading and writing in a directory. -/
def access : Files (StateM Directory) where
  read path := do return (← get).read path
  write path text := do
    match (← get).write path text with
    | .ok directory =>
      set directory
      return .ok ()
    | .error error => return .error error

end Directory

end NodeLink.CommandLine
