/-
  Files in memory.

  A folder is a directory of a system that holds files, under names that may have
  several parts; all but the last of them are directories.  Around it there are the
  directories that every system has, and a device without content.
-/
import Chiptune.Console.Files

set_option autoImplicit false

namespace Chiptune.Console

/-- A directory with files, in the middle of a system. -/
structure Folder where
  /-- Where it lies, in parts from the root on. -/
  location : List String
  /-- The files of the system, by their parts from the root on. -/
  files : List (List String × ByteArray)
  /-- Directories that are there, with those above them. -/
  directories : List (List String)

/-- Where a path leads to, in parts from the root on. -/
inductive Place where
  | directory (parts : List String)
  | file (parts : List String) (bytes : ByteArray)

/-- The parts of a place. -/
def Place.parts : Place → List String
  | directory parts => parts
  | file parts _ => parts

/-- How many bytes are too many for a part of a path. -/
def nameLimit : Nat := 256

namespace Folder

/-- The directories that every system has at its root. -/
def systemDirectories : List (List String) :=
  ["bin", "boot", "dev", "etc", "home", "lib", "media", "mnt", "opt", "proc", "root", "run",
    "sbin", "srv", "sys", "tmp", "usr", "var"].map ([·])

/-- An empty folder. -/
def empty (location : List String) : Folder :=
  ⟨location, [(["dev", "null"], .empty)], location :: systemDirectories⟩

/-- The path of a folder. -/
def path (folder : Folder) : String :=
  String.join (folder.location.map ("/" ++ ·))

/-! ## Looking up -/

/-- Goes one part of a path further.  The root is above itself. -/
def step (folder : Folder) (place : Place) (part : String) : Except FileFault Place :=
  match place with
  | .file _ _ => .error .notDirectory
  | .directory parts =>
    if part == "" || part == "." then .ok place
    else if part == ".." then .ok (.directory parts.dropLast)
    else if nameLimit ≤ part.utf8ByteSize then .error .tooLong
    else
      let name := parts ++ [part]
      match folder.files.lookup name with
      | some bytes => .ok (.file name bytes)
      | none =>
        if folder.directories.any name.isPrefixOf then .ok (.directory name)
        else .error .notFound

/-- Follows a path. -/
def follow (folder : Folder) (path : String) : Except FileFault Place :=
  let start := if isRooted path then [] else folder.location
  (path.splitOn "/").foldlM folder.step (.directory start)

/-- The files of the folder and of the system around it. -/
def toFiles (folder : Folder) : Files where
  location := folder.path
  look path := do
    match ← folder.follow path with
    | .directory _ => .ok .directory
    | .file _ bytes => .ok (.file bytes)

/-! ## Changing -/

/-- A name in parts from the root on. -/
def nameParts (folder : Folder) (name : String) : List String :=
  folder.location ++ name.splitOn "/"

/-- Puts bytes in the place of a file. -/
def put (folder : Folder) (name : String) (bytes : ByteArray) : Folder :=
  let parts := folder.nameParts name
  { folder with
    files := (parts, bytes) :: folder.files.filter fun (other, _) => other != parts
    directories := parts.dropLast :: folder.directories }

/-- Takes a file away. -/
def remove (folder : Folder) (name : String) : Folder :=
  let parts := folder.nameParts name
  { folder with files := folder.files.filter fun (other, _) => other != parts }

/-- Writes a text over the beginning of a file and leaves the rest of it. -/
def overwrite (folder : Folder) (name : String) (text : String) : Folder :=
  let old := (folder.files.lookup (folder.nameParts name)).getD .empty
  let new := text.toUTF8
  folder.put name (new ++ old.extract new.size old.size)

/-- A folder of texts. -/
def ofTexts (location : List String) (texts : List (String × String)) : Folder :=
  texts.foldl (fun folder (name, text) => folder.put name text.toUTF8) (empty location)

end Folder

end Chiptune.Console
