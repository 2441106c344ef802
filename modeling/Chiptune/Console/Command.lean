/-
  The commands of the console.
-/
import Chiptune.Console.Load
import Chiptune.Console.Paint
import Chiptune.Console.Registry
import Chiptune.Playback.Engine

set_option autoImplicit false

namespace Chiptune.Console

/-- An engine with the file its songbook came from. -/
structure Player (G : Type) where
  engine : Engine G
  path : Option String
  /-- Whether messages are painted. -/
  colours : Bool

/-- What the console is to do when a command has run. -/
inductive Reply where
  | success
  /-- Show a message and go on. -/
  | message (text : String)
  | exit
  /-- Nothing asked for a command. -/
  | notACommand
  | error (text : String)
  /-- Watch a file for changes. -/
  | watch (path : String)
  deriving DecidableEq, Repr, Inhabited

/-- The reply of a command and what it has printed itself. -/
structure Response where
  reply : Reply
  printed : String
  deriving DecidableEq, Repr, Inhabited

/-- A response that prints nothing. -/
def Response.of (reply : Reply) : Response := ⟨reply, ""⟩

/-- The commands there are. -/
inductive Command where
  | play
  | stop
  | status
  | tracks
  | instruments
  | reload
  | watch
  | help
  | quit
  deriving DecidableEq, Repr, Inhabited

/-- The commands with their words. -/
def commandWords : List (String × Command) :=
  [("play", .play), ("stop", .stop), ("status", .status), ("tracks", .tracks),
    ("instruments", .instruments), ("reload", .reload), ("watch", .watch), ("help", .help),
    ("quit", .quit), ("exit", .quit)]

/-! ## Listings -/

/-- One line for each track, with a mark at the one that is playing. -/
def trackLine (colours : Bool) (current : Option String) (name : String) (track : Track) :
    String :=
  let mark := if current == some name then "▶" else " "
  let loop := if track.looping then ", loop" else ""
  s!"\n  {mark} {tint colours .brightCyan name} - {Decimal.messageFloat track.bpm} BPM, " ++
    s!"{track.parts.length} part(s){loop}"

/-- One line for each instrument, with the settings it has. -/
def instrumentLine (colours : Bool) (id : String) (instrument : Instrument) : String :=
  let setting (name : String) (value : Option Float32) : String :=
    match value with
    | some x => s!" {name}={Decimal.messageFloat32 x}"
    | none => ""
  s!"\n  {tint colours .brightCyan id} {instrument.waveform.name}" ++
    setting "gain" instrument.gain ++ setting "pan" instrument.pan

/-- The explanation of the notation and of the commands. -/
def helpText (colours : Bool) : String :=
  let title (text : String) : String := paint colours ⟨true, none⟩ text
  let heading (text : String) : String := tint colours .green text
  let command (text : String) : String := tint colours .cyan text
  let entry (painted text : String) : String := "  " ++ painted ++ text
  String.join <| [
    title "🎵 nanotune Help",
    title "================",
    "",
    heading "Notation:",
    entry (command "LEDC44E44G48") "  - instrument id, then notes",
    "  Each note is a pitch A-G (or X for a rest), an optional #,",
    "  an octave 1-8 and a duration code: 4 = crotchet, 8 = minim,",
    "  2 = quaver, 16 = semibreve.",
    "",
    heading "Playback:",
    entry (command "play <track>") "  - Play a track from the songbook",
    entry (command "stop") "          - Stop playback",
    entry (command "status") "        - Show what is playing",
    "",
    heading "Songbook:",
    entry (command "tracks") "        - List tracks",
    entry (command "instruments") "   - List instruments",
    entry (command "reload") "        - Re-read the songbook file",
    entry (command "watch [file]") "  - Reload automatically when a file changes",
    "",
    heading "Other Commands:",
    entry (tint colours .brightGreen "help") "          - Show this help",
    entry (tint colours .brightRed "quit") "          - Exit the REPL"].map (· ++ "\n")

/-! ## Running commands -/

namespace Player

open AudioGraph

variable {G : Type} [AudioGraph G]

/-- Plays a track. -/
def play (name : String) (player : Player G) : Reply × Player G :=
  if name.isEmpty then (.error "Usage: play <track>", player)
  else
    match player.engine.play name with
    | (.error error, engine) => (.error error.message, { player with engine })
    | (.ok (), engine) =>
      let looping := (engine.book.tracks.get? name).any (·.looping)
      let loop := if looping then " (looping)" else ""
      let text := s!"🔊 Playing {name} - {engine.voicesLeft} voice(s){loop}"
      (.message (tint player.colours .brightGreen text), { player with engine })

/-- Ends what is playing. -/
def stop (player : Player G) : Reply × Player G :=
  match player.engine.playing? with
  | some track =>
    (.message (tint player.colours .yellow s!"⏹ Stopped {track}"),
      { player with engine := player.engine.stop })
  | none => (.message "Nothing is playing", player)

/-- Says what is playing, and the time. -/
def status (player : Player G) : String :=
  let clock := String.ofList (Decimal.fixed 2 (.ofFloat (now player.engine.graph).toFloat))
  match player.engine.playing? with
  | some track =>
    s!"▶ {tint player.colours .brightCyan track} - {player.engine.voicesLeft} " ++
      s!"active voice(s), audio clock {clock}s"
  | none => s!"Idle, audio clock {clock}s"

/-- Lists the tracks. -/
def tracks (player : Player G) : String :=
  let entries := player.engine.book.tracks.entries
  if entries.isEmpty then "No tracks loaded"
  else
    s!"🎼 Tracks ({entries.length}):" ++
      String.join (entries.map fun (name, track) =>
        trackLine player.colours player.engine.playing? name track)

/-- Lists the instruments. -/
def instruments (player : Player G) : String :=
  let entries := player.engine.book.instruments.entries
  if entries.isEmpty then "No instruments loaded"
  else
    s!"🎹 Instruments ({entries.length}):" ++
      String.join (entries.map fun (id, instrument) =>
        instrumentLine player.colours id instrument)

/-- Reads the songbook again and goes on with the track that was playing, if the new
songbook still has it.  A songbook that cannot be loaded changes nothing. -/
def reload (files : Files) (path : String) (player : Player G) :
    Except LoadError String × Player G :=
  match loadBook files path with
  | .error error => (.error error, player)
  | .ok book =>
    let engine := player.engine.replaceBook book
    let mark := tint player.colours .brightGreen "✓"
    let done := s!"{mark} Reloaded {path}"
    match player.engine.playing? with
    | none => (.ok done, { player with engine })
    | some track =>
      match engine.play track with
      | (.ok (), engine) => (.ok s!"{done}, resumed {track}", { player with engine })
      | (.error error, engine) =>
        (.ok s!"{done}, could not resume {track}: {error.message}", { player with engine })

/-- Runs a command with an argument. -/
def run (files : Files) (command : Command) (argument : String) (player : Player G) :
    Response × Player G :=
  match command with
  | .play =>
    let (reply, player) := player.play argument
    (.of reply, player)
  | .stop =>
    let (reply, player) := player.stop
    (.of reply, player)
  | .status => (.of (.message player.status), player)
  | .tracks => (.of (.message player.tracks), player)
  | .instruments => (.of (.message player.instruments), player)
  | .reload =>
    match player.path with
    | none => (.of (.error "No songbook file to reload"), player)
    | some path =>
      match player.reload files path with
      | (.ok text, player) => (.of (.message text), player)
      | (.error error, player) => (.of (.error error.message), player)
  | .watch =>
    if !argument.isEmpty then (.of (.watch argument), player)
    else
      match player.path with
      | some path => (.of (.watch path), player)
      | none => (.of (.error "Usage: watch <file>"), player)
  | .help => (⟨.success, helpText player.colours⟩, player)
  | .quit => (.of .exit, player)

/-- The registry of the console. -/
def registry : Registry Command := Registry.empty.registerAll commandWords

/-- Runs the command a line asks for. -/
def execute (files : Files) (line : String) (player : Player G) : Response × Player G :=
  match registry.find? line with
  | some (command, argument) => player.run files command argument
  | none => (.of .notACommand, player)

end Player

end Chiptune.Console
