/-
  The program: from its arguments to the end of its session.
-/
import Chiptune.Console.Arguments
import Chiptune.Console.Session
import Chiptune.Sound.Device

set_option autoImplicit false

namespace Chiptune.Console

/-- How a program ends. -/
structure Ending where
  code : Nat
  printed : String
  /-- What is printed for errors. -/
  complaint : String
  deriving DecidableEq, Repr, Inhabited

/-- The name and the version of the program. -/
def versionText : String := "nanotune 0.1.0\n"

/-- How the program is called. -/
def usageText : String :=
  String.join <| [
    "Play nanotune songbooks from the terminal",
    "",
    "Usage: nanotune [OPTIONS] <SONGBOOK>",
    "",
    "Arguments:",
    "  <SONGBOOK>  Songbook JSON file with instruments and tracks",
    "",
    "Options:",
    "  -p, --play <PLAY>        Start playing this track immediately",
    "  -w, --watch              Reload the songbook when the file changes",
    "      --tick-ms <TICK_MS>  How often completion timers are checked, in milliseconds " ++
      "[default: 5]",
    "  -h, --help               Print help",
    "  -V, --version            Print version"].map (· ++ "\n")

/-- Lines behind the first one are set in like the first. -/
def indentLines (text : String) : String :=
  String.ofList (text.toList.flatMap fun c =>
    if c = '\n' then ['\n', ' ', ' ', ' ', ' '] else [c])

/-- An error with its cause, as it is printed when the program gives up. -/
def failureText (summary : String) (cause : Option String) : String :=
  match cause with
  | none => s!"Error: {summary}\n"
  | some cause => s!"Error: {summary}\n\nCaused by:\n    {indentLines cause}\n"

/-- A program that gives up. -/
def Ending.failure (printed summary : String) (cause : Option String) : Ending :=
  ⟨1, printed, failureText summary cause⟩

/-- A program that has begun, or has ended already. -/
inductive Launch where
  | ended (ending : Ending)
  | running (printed : String) (session : Session Device)

/-- Loads the songbook, opens the output device, and begins a session. -/
def launchWith (files : Files) (output : Output) (colours : Bool) (options : Options) : Launch :=
  match loadBook files options.songbook with
  | .error error => .ended (.failure "" error.summary (some error.cause))
  | .ok book =>
    match Device.openOutput output with
    | .error error =>
      .ended (.failure "" "failed to open audio output" (some error.message))
    | .ok device =>
      let engine := (Engine.ofBook book device).listen ""
      let session : Session Device := ⟨⟨engine, some options.songbook, colours⟩, []⟩
      let (watching, session) :=
        if options.watch then session.watch files options.songbook else ("", session)
      match options.play with
      | none => .running (watching ++ banner colours) session
      | some track =>
        match session.player.engine.play track with
        | (.error error, _) => .ended (.failure watching error.message none)
        | (.ok (), engine) =>
          let playing := printLine <|
            tint colours .brightGreen "🔊" ++ " Playing " ++ tint colours .brightCyan track
          .running (watching ++ playing ++ banner colours)
            { session with player := { session.player with engine } }

/-- Begins with the arguments of the command line. -/
def launch (files : Files) (output : Output) (colours : Bool) (arguments : List String) :
    Launch :=
  match readArguments arguments with
  | .error error => .ended ⟨2, "", s!"error: {error.message}\n"⟩
  | .ok .help => .ended ⟨0, usageText, ""⟩
  | .ok .version => .ended ⟨0, versionText, ""⟩
  | .ok (.run options) => launchWith files output colours options

/-- The paths that a session may look at when it reacts to an event. -/
def pathsOf {G : Type} (session : Session G) : Event → List String
  | .line text =>
    let argument := Registry.argument? "watch" (typedLine text)
    argument.toList ++ session.player.path.toList
  | .fileChanged path => [path]
  | _ => []

end Chiptune.Console
