/-
  The command line.

  Lines come from standard input.  Before a line is taken time passes, and the
  watched files are compared with what they held before.  The output device is one
  that never asks for samples, so the clock of its graph stands still.
-/
import Chiptune.Console.Program

set_option autoImplicit false

namespace Chiptune.Console

/-- The fault an error of the system stands for. -/
def faultOf : IO.Error → FileFault
  | .noFileOrDirectory _ _ _ => .notFound
  | error => .other (toString error)

/-- Looks at a path. -/
def lookAt (path : String) : IO (Except FileFault Entry) := do
  try
    if ← (← IO.FS.realPath path).isDir then return .ok .directory
    return .ok (.file (← IO.FS.readBinFile path))
  catch error => return .error (faultOf error)

/-- The files under some paths. -/
def filesUnder (paths : List String) : IO Files := do
  let entries ← paths.mapM fun path => do return (path, ← lookAt path)
  let location := (← IO.currentDir).toString
  let entries := entries ++ entries.map fun (path, entry) =>
    (if isRooted path then path else joinPath location path, entry)
  return ⟨location, fun path => (entries.lookup path).getD (.error .notFound)⟩

/-- The watched files with what they hold. -/
def readWatched (session : Session Device) : IO (List (String × String)) := do
  let files ← filesUnder session.watched
  return session.watched.map fun path => (path, (files.read path).toOption.getD "")

/-- Lets a session react to an event and prints what it says. -/
def react (event : Event) (session : Session Device) : IO (Bool × Session Device) := do
  let files ← filesUnder (pathsOf session event)
  let (turn, session) := session.handle files event
  IO.print turn.printed
  (← IO.getStdout).flush
  return (turn.goesOn, session)

/-- Tells a session of the watched files that hold something else than before. -/
def noticeChanges (before : List (String × String)) (session : Session Device) :
    IO (Session Device) := do
  let files ← filesUnder []
  let mut session := session
  for (path, text) in ← readWatched session do
    if before.lookup path ≠ some text ∧ (before.lookup path).isSome then
      session := (← react (.fileChanged (files.absolute path)) session).2
  return session

/-- Takes lines until the session ends. -/
partial def takeInput (input : IO.FS.Stream) (session : Session Device) : IO Unit := do
  let before ← readWatched session
  let line ← input.getLine
  let session ← noticeChanges before session
  let (_, session) ← react .tick session
  let event := if line.isEmpty then Event.endOfInput else .line line
  let (goesOn, session) ← react event session
  if goesOn then takeInput input session

/-- The output device. -/
def standardOutput : Output := ⟨.f32, 2, 48000, none⟩

end Chiptune.Console

open Chiptune.Console in
/-- Runs the program. -/
def main (arguments : List String) : IO UInt32 := do
  let output ← IO.getStdout
  let paths :=
    match readArguments arguments with
    | .ok (.run options) => [options.songbook]
    | _ => []
  match launch (← filesUnder paths) standardOutput (← output.isTty) arguments with
  | .ended ending =>
    IO.print ending.printed
    IO.eprint ending.complaint
    return UInt32.ofNat ending.code
  | .running printed session =>
    IO.print printed
    output.flush
    takeInput (← IO.getStdin) session
    return 0
