/-
  Files as the console sees them.

  Files are looked up by paths, from one working directory.  What is no path, or is too
  long for one, is refused before anything is looked up.
-/
set_option autoImplicit false

namespace Chiptune.Console

/-- What there is under a path. -/
inductive Entry where
  | file (bytes : ByteArray)
  | directory

/-- Why a path leads to no text. -/
inductive FileFault where
  | notFound
  | notDirectory
  | isDirectory
  | tooLong
  /-- The path holds a zero, which is no character of any name. -/
  | holdsZero
  | notText
  | other (message : String)
  deriving DecidableEq, Repr, Inhabited

/-- Why a path leads to no text, in words. -/
def FileFault.message : FileFault → String
  | notFound => "No such file or directory (os error 2)"
  | notDirectory => "Not a directory (os error 20)"
  | isDirectory => "Is a directory (os error 21)"
  | tooLong => "File name too long (os error 36)"
  | holdsZero => "file name contained an unexpected NUL byte"
  | notText => "stream did not contain valid UTF-8"
  | other message => message

/-- The files that can be looked up. -/
structure Files where
  /-- The path of the working directory. -/
  location : String
  look : String → Except FileFault Entry

/-! ## Paths -/

/-- Whether a path does not depend on the working directory. -/
def isRooted (path : String) : Bool := path.toList.head? == some '/'

/-- The components of a path.  The root counts as one, and so does a leading dot;
other dots and repeated slashes mean nothing. -/
def pathParts (path : String) : List String :=
  let pieces := path.splitOn "/"
  let lead :=
    if isRooted path then ["/"] else if pieces.head? == some "." then ["."] else []
  lead ++ pieces.filter fun piece => piece != "" && piece != "."

/-- Whether one path ends with all components of another. -/
def pathEndsWith (path ending : String) : Bool :=
  (pathParts ending).isSuffixOf (pathParts path)

/-- The path of a name in a directory. -/
def joinPath (directory name : String) : String :=
  if directory.toList.getLast? == some '/' then directory ++ name else s!"{directory}/{name}"

/-- How many bytes are too many for a path. -/
def pathLimit : Nat := 4096

namespace Files

/-- A path that does not depend on the working directory. -/
def absolute (files : Files) (path : String) : String :=
  if isRooted path then path else joinPath files.location path

/-- Looks up a path, if it is one. -/
def find (files : Files) (path : String) : Except FileFault Entry :=
  if path.toList.contains '\x00' then .error .holdsZero
  else if path.isEmpty then .error .notFound
  else if pathLimit ≤ path.utf8ByteSize then .error .tooLong
  else files.look path

/-- The text of a file. -/
def read (files : Files) (path : String) : Except FileFault String := do
  match ← files.find path with
  | .directory => .error .isDirectory
  | .file bytes =>
    match String.fromUTF8? bytes with
    | some text => .ok text
    | none => .error .notText

end Files

end Chiptune.Console
