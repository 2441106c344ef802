/-
  Whole runs of the program, with what happens around it.

  While a run pauses the lines that have come in are taken, and then time passes.  A
  file that is written over is noticed at once if it is watched, or its directory is;
  writing nothing over it changes nothing.
-/
import Chiptune.Console.Folder
import Chiptune.Console.Program

set_option autoImplicit false

namespace Chiptune.Console

/-- What happens around a program. -/
inductive Happening where
  /-- Text comes in; lines may come in several portions. -/
  | input (text : String)
  | pause
  /-- The beginning of a file is written over. -/
  | overwrite (name : String) (text : String)
  deriving DecidableEq, Repr, Inhabited

/-- A program that is running in a folder. -/
structure Run where
  folder : Folder
  session : Session Device
  /-- Text that has come in and has not been taken. -/
  unread : List Char
  printed : String
  /-- Whether the session goes on. -/
  goesOn : Bool

namespace Run

/-- Lets the session react, if it goes on. -/
def react (event : Event) (run : Run) : Run :=
  if run.goesOn then
    let (turn, session) := run.session.handle run.folder.toFiles event
    { run with session, printed := run.printed ++ turn.printed, goesOn := turn.goesOn }
  else run

/-- The complete lines of a text, and what is left behind the last one. -/
def splitLines : List Char → List (List Char) × List Char
  | [] => ([], [])
  | c :: rest =>
    let (lines, left) := splitLines rest
    if c = '\n' then ([] :: lines, left)
    else
      match lines with
      | [] => ([], c :: left)
      | line :: lines => ((c :: line) :: lines, left)

/-- Takes the complete lines that have come in. -/
def takeLines (run : Run) : Run :=
  let (lines, left) := splitLines run.unread
  lines.foldl (fun run line => run.react (.line (String.ofList line)))
    { run with unread := left }

/-- The path under which a place is watched: that of the last time it was. -/
def watchedAs (run : Run) (parts : List String) : Option String :=
  let isThere (path : String) : Bool :=
    match run.folder.follow path with
    | .ok place => place.parts == parts
    | .error _ => false
  (run.session.watched.reverse.find? isThere).map run.folder.toFiles.absolute

/-- The paths under which a change of a file is noticed, in order: first in the directory
where it is, then by itself. -/
def noticedAs (run : Run) (name : String) : List String :=
  let parts := run.folder.nameParts name
  let inside (directory : String) : String := joinPath directory (parts.getLastD "")
  ((run.watchedAs parts.dropLast).map inside).toList ++ (run.watchedAs parts).toList

/-- Lets something happen. -/
def meet (happening : Happening) (run : Run) : Run :=
  match happening with
  | .input text => { run with unread := run.unread ++ text.toList }
  | .pause => run.takeLines.react .tick
  | .overwrite name text =>
    let run := { run.takeLines with folder := run.folder.overwrite name text }
    let noticed := if text.isEmpty then [] else run.noticedAs name
    match noticed.find? run.session.isWatched with
    | some path => run.react (.fileChanged path)
    | none => run

/-- Takes what is left of the input, and its end. -/
def finish (run : Run) : Run :=
  let run := run.takeLines
  let run :=
    if run.unread.isEmpty then run else run.react (.line (String.ofList run.unread))
  run.react .endOfInput

end Run

/-- Runs the program to its end. -/
def transcript (folder : Folder) (output : Output) (colours : Bool) (arguments : List String)
    (happenings : List Happening) : Ending :=
  match launch folder.toFiles output colours arguments with
  | .ended ending => ending
  | .running printed session =>
    let begun : Run := ⟨folder, session, [], printed, true⟩
    let run := happenings.foldl (fun run happening => run.meet happening) begun
    ⟨0, run.finish.printed, ""⟩

end Chiptune.Console
