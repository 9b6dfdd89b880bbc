/-!
# Files

The part of a file system that a run sees: every path has a text, or a reason why it has none.  A
directory of files in memory is one such view.
-/

namespace NovelScript

inductive ReadFailure where
  | absent
  | directory
  /-- The path goes on below a file. -/
  | belowFile
  | nameTooLong
  | invalidText
  deriving DecidableEq, Repr

namespace ReadFailure

def message : ReadFailure → String
  | absent => "No such file or directory (os error 2)"
  | directory => "Is a directory (os error 21)"
  | belowFile => "Not a directory (os error 20)"
  | nameTooLong => "File name too long (os error 36)"
  | invalidText => "stream did not contain valid UTF-8"

end ReadFailure

abbrev Files := String → Except ReadFailure String

def decodeText (bytes : ByteArray) : Except ReadFailure String :=
  match String.fromUTF8? bytes with
  | some text => .ok text
  | none => .error .invalidText

/-! ## Paths -/

def pathSegments (path : String) : List String := path.splitOn "/"

/-- Whether a segment leads nowhere. -/
def isIdle (segment : String) : Bool := segment = "" || segment = "."

/-- A path whose last name gets an ending, unless there is no such name. -/
def withEnding (ending path : String) : Option String :=
  let kept := ((pathSegments path).reverse.dropWhile isIdle).reverse
  match kept.getLast? with
  | none | some ".." => none
  | some _ => some ("/".intercalate kept ++ ending)

/-! ## Directories in memory -/

structure Directory where
  files : List (String × ByteArray)

inductive Place where
  /-- Outside the directory, where nothing is known but that it is a directory. -/
  | outside
  | directory (names : List String)
  | file (bytes : ByteArray)

namespace Directory

def namesOf (name : String) : List String := (pathSegments name).filter fun part => !isIdle part

def find (directory : Directory) (names : List String) : Except ReadFailure Place :=
  match directory.files.find? fun (name, _) => namesOf name = names with
  | some (_, bytes) => .ok (.file bytes)
  | none =>
      if directory.files.any fun (name, _) => names.isPrefixOf (namesOf name) then
        .ok (.directory names)
      else .error .absent

/-- The size of a name in bytes, and of a path, from which on they are too long. -/
def nameBound : Nat := 256

def pathBound : Nat := 4096

/-- Go on from a place by one segment of a path; `..` goes back. -/
def walk (directory : Directory) (place : Place) (segment : String) : Except ReadFailure Place :=
  match place with
  | .file _ => .error .belowFile
  | .outside =>
      if isIdle segment || segment = ".." then .ok .outside
      else if nameBound ≤ segment.utf8ByteSize then .error .nameTooLong
      else .error .absent
  | .directory names =>
      if isIdle segment then .ok place
      else if segment = ".." then
        .ok (if names.isEmpty then .outside else .directory names.dropLast)
      else if nameBound ≤ segment.utf8ByteSize then .error .nameTooLong
      else directory.find (names ++ [segment])

def placeOf (directory : Directory) (path : String) : Except ReadFailure Place :=
  if path.isEmpty then .error .absent
  else if pathBound ≤ path.utf8ByteSize then .error .nameTooLong
  else
    let start := if path.startsWith "/" then .outside else .directory []
    (pathSegments path).foldlM directory.walk start

def view (directory : Directory) : Files := fun path => do
  match ← directory.placeOf path with
  | .file bytes => decodeText bytes
  | .outside | .directory _ => .error .directory

end Directory

end NovelScript
