/-
  An interactive session: lines, ticks and changes of files, one after another.
-/
import Chiptune.Console.Command
import Chiptune.Text.Erase

set_option autoImplicit false

namespace Chiptune.Console

/-- What a session reacts to. -/
inductive Event where
  | line (text : String)
  | endOfInput
  /-- Time has passed. -/
  | tick
  | fileChanged (path : String)
  deriving DecidableEq, Repr, Inhabited

/-- A player and the files that are watched. -/
structure Session (G : Type) where
  player : Player G
  watched : List String

/-- What a session prints, and whether it goes on. -/
structure Turn where
  printed : String
  goesOn : Bool
  deriving DecidableEq, Repr, Inhabited

/-- A line of output. -/
def printLine (text : String) : String := text ++ "\n"

/-- A line as it is meant: what was rubbed out and the blanks at both ends are gone. -/
def typedLine (text : String) : String := Text.trim (Text.erase text)

/-- How a file that cannot be watched is reported. -/
def watchFault (files : Files) (path : String) (fault : FileFault) : String :=
  let reason :=
    match fault with
    | .notFound => "No path was found."
    | .holdsZero => "data provided contains a nul byte"
    | other => other.message
  s!"{reason} about [{Text.quoted (files.absolute path)}]"

/-- What is printed when a session begins. -/
def banner (colours : Bool) : String :=
  let green (text : String) : String := "'" ++ tint colours .brightGreen text ++ "'"
  let red (text : String) : String := tint colours .brightRed text
  String.join <| [
    tint colours .brightYellow "🎵" ++ " " ++ tintBold colours .brightCyan "nanotune",
    "Type " ++ green "tracks" ++ " to list tracks, " ++ green "play <track>" ++ " to start one.",
    "Type " ++ green "help" ++ " for more information, '" ++ red "quit" ++ "' or " ++
      red "Ctrl+C" ++ " to exit.",
    ""].map printLine

namespace Session

variable {G : Type}

/-- What is printed at the end. -/
def farewell (session : Session G) : String :=
  printLine (tint session.player.colours .brightCyan "Goodbye!" ++ " 🎵")

/-- Watches a file. -/
def watch (files : Files) (path : String) (session : Session G) : String × Session G :=
  let player := session.player
  match files.find (files.absolute path) with
  | .error fault =>
    (printLine (tint player.colours .red "Error:" ++ s!" Failed to watch {path}: " ++
      watchFault files path fault), session)
  | .ok _ =>
    (printLine (tint player.colours .brightCyan "👀" ++ " Watching " ++
        tint player.colours .brightGreen path ++ " for changes..."),
      { player := { player with path := some (player.path.getD path) }
        watched := session.watched ++ [path] })

/-- Whether a path is that of a watched file, given from further up or from further down. -/
def isWatched (session : Session G) (path : String) : Bool :=
  session.watched.any fun watched => pathEndsWith path watched || pathEndsWith watched path

variable [AudioGraph G]

/-- Shows the reply to a command. -/
def respond (files : Files) (line : String) (reply : Reply) (session : Session G) :
    Turn × Session G :=
  let colours := session.player.colours
  let error := tintBold colours .brightRed "Error:"
  match reply with
  | .success => (⟨"", true⟩, session)
  | .message text => (⟨printLine text, true⟩, session)
  | .exit => (⟨session.farewell, false⟩, session)
  | .error text => (⟨printLine s!"{error} {tint colours .red text}", true⟩, session)
  | .watch path =>
    let (printed, session) := session.watch files path
    (⟨printed, true⟩, session)
  | .notACommand =>
    let help := tint colours .brightGreen "help"
    (⟨printLine (s!"{error} Unknown command '{line}'. Type '{help}' for a list of commands."),
      true⟩, session)

/-- Reacts to an event. -/
def handle (files : Files) (event : Event) (session : Session G) : Turn × Session G :=
  let player := session.player
  match event with
  | .line text =>
    let line := typedLine text
    if line.isEmpty then (⟨"", true⟩, session)
    else
      let (response, player) := player.execute files line
      let (turn, session) := { session with player }.respond files line response.reply
      (⟨response.printed ++ turn.printed, turn.goesOn⟩, session)
  | .endOfInput => (⟨session.farewell, false⟩, session)
  | .tick =>
    let (tick, engine) := player.engine.tick
    let finished (track : String) : String :=
      printLine (tint player.colours .brightYellow "⏹" ++ " " ++
        tint player.colours .brightCyan track ++ " finished")
    (⟨String.join (tick.heard.map finished), true⟩,
      { session with player := { player with engine } })
  | .fileChanged path =>
    if session.isWatched path then
      let notice :=
        printLine (tint player.colours .brightYellow "⚡" ++ s!" File changed: {path}")
      let (outcome, player) := player.reload files path
      let text :=
        match outcome with
        | .ok text => text
        | .error error => tint player.colours .red "Error:" ++ " " ++ error.message
      (⟨notice ++ printLine text, true⟩, { session with player })
    else (⟨"", true⟩, session)

/-- Ends a session. -/
def close (session : Session G) : Session G :=
  { session with player :=
    { session.player with engine := session.player.engine.stop } }

end Session

end Chiptune.Console
