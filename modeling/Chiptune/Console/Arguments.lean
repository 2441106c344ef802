/-
  The arguments of the command line.

  Arguments are first read as words, options and flags, several of which may stand
  behind one dash, and then taken one after another: the first one that cannot be
  taken, or that asks for the version or for help, decides.
-/
set_option autoImplicit false

namespace Chiptune.Console

/-- The options that stand alone. -/
inductive Flag where
  | watch
  | help
  | version
  deriving DecidableEq, Repr, Inhabited

/-- The options that have a value. -/
inductive ValueOption where
  | play
  | tickMs
  deriving DecidableEq, Repr, Inhabited

/-- What one argument, or one letter of it, means. -/
inductive ArgumentToken where
  | flag (flag : Flag)
  /-- An option with the value attached to it, if there is one. -/
  | option (option : ValueOption) (value : Option String)
  | word (text : String)
  /-- Only words follow. -/
  | divider
  | unknown (text : String)
  deriving DecidableEq, Repr, Inhabited

/-- Why the arguments are refused. -/
inductive UsageError where
  | unexpected (text : String)
  | missingValue (option : ValueOption)
  | invalidTick (text : String)
  | repeated (name : String)
  | emptyPath
  | missingPath
  deriving DecidableEq, Repr, Inhabited

/-- The name of an option. -/
def ValueOption.name : ValueOption → String
  | play => "--play <PLAY>"
  | tickMs => "--tick-ms <TICK_MS>"

/-- Why the arguments are refused, in words. -/
def UsageError.message : UsageError → String
  | unexpected text => s!"unexpected argument '{text}' found"
  | missingValue option => s!"a value is required for '{option.name}' but none was supplied"
  | invalidTick text => s!"invalid value '{text}' for '--tick-ms <TICK_MS>'"
  | repeated name => s!"the argument '{name}' cannot be used multiple times"
  | emptyPath => "a value is required for '<SONGBOOK>' but none was supplied"
  | missingPath => "the following required arguments were not provided: <SONGBOOK>"

/-- What the program is to do. -/
structure Options where
  songbook : String
  /-- A track to start with. -/
  play : Option String
  /-- Whether the songbook is loaded again when its file changes. -/
  watch : Bool
  /-- How often timers are looked at, in milliseconds. -/
  tickMs : Nat
  deriving DecidableEq, Repr, Inhabited

/-- What the arguments ask for. -/
inductive Request where
  | run (options : Options)
  | help
  | version
  deriving DecidableEq, Repr, Inhabited

/-! ## From arguments to tokens -/

/-- An option that is written out, behind its two dashes. -/
def longToken (text : List Char) : ArgumentToken :=
  let name := text.takeWhile (· != '=')
  let value :=
    match text.dropWhile (· != '=') with
    | [] => none
    | _ :: rest => some (String.ofList rest)
  match String.ofList name, value with
  | "watch", none => .flag .watch
  | "help", none => .flag .help
  | "version", none => .flag .version
  | "play", value => .option .play value
  | "tick-ms", value => .option .tickMs value
  | _, _ => .unknown (String.ofList ('-' :: '-' :: text))

/-- The value attached to a letter; an equals sign may stand before it. -/
def attachedValue : List Char → Option String
  | [] => none
  | '=' :: rest => some (String.ofList rest)
  | rest => some (String.ofList rest)

/-- Letters behind one dash. -/
def shortTokens : List Char → List ArgumentToken
  | [] => []
  | 'w' :: rest => .flag .watch :: shortTokens rest
  | 'h' :: rest => .flag .help :: shortTokens rest
  | 'V' :: rest => .flag .version :: shortTokens rest
  | 'p' :: rest => [.option .play (attachedValue rest)]
  | other :: _ => [.unknown (String.ofList ['-', other])]

/-- The tokens of arguments.  A single dash is a word. -/
def tokens : List String → List ArgumentToken
  | [] => []
  | argument :: rest =>
    match argument.toList with
    | ['-', '-'] => .divider :: rest.map .word
    | '-' :: '-' :: text => longToken text :: tokens rest
    | '-' :: c :: text => shortTokens (c :: text) ++ tokens rest
    | _ => .word argument :: tokens rest

/-! ## From tokens to options -/

/-- The options taken so far. -/
structure OptionDraft where
  songbook : Option String := none
  play : Option String := none
  watch : Bool := false
  tickMs : Option Nat := none

/-- Reads a number of milliseconds from 1 to 1000; a plus sign may stand before it. -/
def readTick? (text : String) : Option Nat :=
  let digits :=
    match text.toList with
    | '+' :: rest => rest
    | cs => cs
  let value := digits.foldl (fun n c => n * 10 + (c.toNat - '0'.toNat)) 0
  if !digits.isEmpty && digits.all Char.isDigit && 1 ≤ value && value ≤ 1000 then some value
  else none

/-- Takes the value of an option. -/
def takeValue (option : ValueOption) (value : String) (draft : OptionDraft) :
    Except UsageError OptionDraft :=
  match option with
  | .play =>
    if draft.play.isSome then .error (.repeated option.name)
    else .ok { draft with play := some value }
  | .tickMs =>
    match readTick? value with
    | none => .error (.invalidTick value)
    | some tick =>
      if draft.tickMs.isSome then .error (.repeated option.name)
      else .ok { draft with tickMs := some tick }

/-- Takes the path of the songbook. -/
def takeWord (text : String) (draft : OptionDraft) : Except UsageError OptionDraft :=
  if draft.songbook.isSome then .error (.unexpected text)
  else if text.isEmpty then .error .emptyPath
  else .ok { draft with songbook := some text }

/-- Takes tokens in order. -/
def takeTokens : List ArgumentToken → OptionDraft → Except UsageError Request
  | [], draft =>
    match draft.songbook with
    | none => .error .missingPath
    | some songbook => .ok (.run ⟨songbook, draft.play, draft.watch, draft.tickMs.getD 5⟩)
  | .flag .help :: _, _ => .ok .help
  | .flag .version :: _, _ => .ok .version
  | .flag .watch :: rest, draft =>
    if draft.watch then .error (.repeated "--watch")
    else takeTokens rest { draft with watch := true }
  | .option option (some value) :: rest, draft => do
    takeTokens rest (← takeValue option value draft)
  | .option option none :: .word value :: rest, draft => do
    takeTokens rest (← takeValue option value draft)
  | .option option none :: _, _ => .error (.missingValue option)
  | .word text :: rest, draft => do takeTokens rest (← takeWord text draft)
  | .divider :: rest, draft => takeTokens rest draft
  | .unknown text :: _, _ => .error (.unexpected text)

/-- Reads the arguments of the command line. -/
def readArguments (arguments : List String) : Except UsageError Request :=
  takeTokens (tokens arguments) {}

end Chiptune.Console
