/-
  Songbooks in files.
-/
import Chiptune.Console.Files
import Chiptune.Songbook.Reader

set_option autoImplicit false

namespace Chiptune.Console

/-- Why a file gives no songbook. -/
inductive LoadError where
  | unreadable (path : String) (fault : FileFault)
  | invalid (path : String) (error : MusicError)
  deriving DecidableEq

namespace LoadError

/-- What went wrong. -/
def summary : LoadError → String
  | unreadable path _ => s!"failed to read songbook {path}"
  | invalid path _ => s!"invalid songbook {path}"

/-- Why it went wrong. -/
def cause : LoadError → String
  | unreadable _ fault => fault.message
  | invalid _ error => error.message

/-- What went wrong and why, on one line. -/
def message (error : LoadError) : String := s!"{error.summary}: {error.cause}"

end LoadError

/-- Reads a songbook and checks it. -/
def loadBook (files : Files) (path : String) : Except LoadError Songbook := do
  let text ← (files.read path).mapError (.unreadable path)
  (Songbook.ofJson text).mapError (.invalid path)

end Chiptune.Console
