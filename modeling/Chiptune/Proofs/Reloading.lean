/-
  A songbook that is read once more.

  Whatever a console does to its player, the engine has been through a run of requests.
  So what holds in every run of an engine can be said of every player: a file that cannot be
  loaded changes nothing, and one that can renews the engine and leaves the rest of the
  player as it was.
-/
import Chiptune.Console.Session
import Chiptune.Proofs.Resuming
import Chiptune.Songbook.Writer

set_option autoImplicit false

namespace Chiptune

/-! ## Engines in a run -/

namespace Engine

/-- One engine comes from another one in a run. -/
def Leads (before left : Engine Recorder) : Prop := ∃ events, left = before.after events

namespace Leads

variable {first second third : Engine Recorder}

theorem refl (engine : Engine Recorder) : Leads engine engine := ⟨[], rfl⟩

theorem trans (h : Leads first second) (hnext : Leads second third) : Leads first third := by
  obtain ⟨events, rfl⟩ := h
  obtain ⟨others, rfl⟩ := hnext
  exact ⟨events ++ others, List.foldl_append.symm⟩

theorem happen (event : Event) (engine : Engine Recorder) :
    Leads engine (engine.happen event).2 := ⟨[event], rfl⟩

theorem play (name : String) (engine : Engine Recorder) : Leads engine (engine.play name).2 :=
  happen (.ask (.play name)) engine

end Leads

end Engine

namespace Console

/-! ## Players -/

namespace Player

variable {player : Player Recorder} {files : Files} {file : String}

/-- What may happen to a player. -/
inductive Step where
  /-- A line is taken for a command. -/
  | line (files : Files) (text : String)
  | reload (files : Files) (file : String)
  /-- The songbook is to be found under another path. -/
  | point (path : Option String)
  | engine (event : Engine.Event)

/-- Takes one step. -/
def perform (step : Step) (player : Player Recorder) : Player Recorder :=
  match step with
  | .line files text => (player.execute files text).2
  | .reload files file => (player.reload files file).2
  | .point path => { player with path }
  | .engine event => { player with engine := (player.engine.happen event).2 }

/-- Takes one step after the other. -/
def after (steps : List Step) (player : Player Recorder) : Player Recorder :=
  steps.foldl (fun player step => player.perform step) player

@[simp] theorem after_nil (player : Player Recorder) : player.after [] = player := rfl

@[simp] theorem after_cons (step : Step) (steps : List Step) (player : Player Recorder) :
    player.after (step :: steps) = (player.perform step).after steps := rfl

theorem reload_of_error {error : LoadError} (h : loadBook files file = .error error) :
    player.reload files file = (.error error, player) := by
  rw [reload, h]

/-- A songbook that is loaded renews the engine and nothing else. -/
theorem reload_of_ok {book : Songbook} (h : loadBook files file = .ok book)
    (player : Player Recorder) :
    ∃ text, player.reload files file = (.ok text,
      { player with
        engine := (player.engine.replaceBook book).resume player.engine.playing? }) := by
  unfold reload
  rw [h]
  cases player.engine.playing? with
  | none => exact ⟨_, rfl⟩
  | some track =>
    simp only [Engine.resume]
    split
    all_goals
      rename_i heq
      rw [heq]
      exact ⟨_, rfl⟩

/-! ### What becomes of the engine -/

theorem leads_reload (files : Files) (file : String) (player : Player Recorder) :
    player.engine.Leads (player.reload files file).2.engine := by
  cases h : loadBook files file with
  | error error =>
    rw [reload_of_error h]
    exact .refl _
  | ok book =>
    obtain ⟨text, heq⟩ := reload_of_ok h player
    rw [heq]
    refine (Engine.Leads.happen (.ask (.replaceBook book)) player.engine).trans ?_
    cases player.engine.playing? with
    | none => exact .refl _
    | some track => exact .play track _

theorem leads_play (name : String) (player : Player Recorder) :
    player.engine.Leads (player.play name).2.engine := by
  have hplay := Engine.Leads.play name player.engine
  unfold play
  split
  · exact .refl _
  · split
    all_goals
      rename_i heq
      rwa [heq] at hplay

theorem leads_stop (player : Player Recorder) : player.engine.Leads player.stop.2.engine := by
  unfold stop
  split
  · exact .happen (.ask .stop) player.engine
  · exact .refl _

/-- Commands that say something leave the engine alone, and the others ask it for something. -/
theorem leads_run (files : Files) (command : Command) (argument : String)
    (player : Player Recorder) :
    player.engine.Leads (player.run files command argument).2.engine := by
  cases command with
  | play => exact leads_play argument player
  | stop => exact leads_stop player
  | reload =>
    simp only [run]
    split
    · exact .refl _
    · rename_i path _
      have hreload := leads_reload files path player
      split
      all_goals
        rename_i heq
        rwa [heq] at hreload
  | watch =>
    simp only [run]
    split
    · exact .refl _
    · split <;> exact .refl _
  | _ => exact .refl _

theorem leads_perform (step : Step) (player : Player Recorder) :
    player.engine.Leads (player.perform step).engine := by
  cases step with
  | line files text =>
    simp only [perform, execute]
    split
    · exact leads_run files _ _ player
    · exact .refl _
  | reload files file => exact leads_reload files file player
  | point path => exact .refl _
  | engine event => exact .happen event player.engine

/-- The engine of a player has been in a run. -/
theorem leads_after (steps : List Step) (player : Player Recorder) :
    player.engine.Leads (player.after steps).engine := by
  induction steps generalizing player with
  | nil => exact .refl _
  | cons step steps ih => exact (leads_perform step player).trans (ih (player.perform step))

end Player

namespace Session

/-- Showing a reply gives at most another path to a player. -/
theorem player_respond (files : Files) (line : String) (reply : Reply)
    (session : Session Recorder) :
    ∃ path, (session.respond files line reply).2.player = { session.player with path } := by
  cases reply with
  | watch path =>
    simp only [respond, watch]
    split
    · exact ⟨session.player.path, rfl⟩
    · exact ⟨some (session.player.path.getD path), rfl⟩
  | _ => exact ⟨session.player.path, rfl⟩

/-- A line that is not empty is executed, and the reply is shown. -/
theorem handle_line {files : Files} {text : String} (h : (typedLine text).isEmpty = false)
    (session : Session Recorder) :
    (session.handle files (.line text)).2 =
      ({ session with player := (session.player.execute files (typedLine text)).2 }.respond files
        (typedLine text) (session.player.execute files (typedLine text)).1.reply).2 := by
  simp only [handle, h, Bool.false_eq_true, if_false]

/-- What a session does to its player is made of such steps. -/
theorem exists_steps (files : Files) (event : Event) (session : Session Recorder) :
    ∃ steps, (session.handle files event).2.player = session.player.after steps := by
  cases event with
  | line text =>
    cases hempty : (typedLine text).isEmpty with
    | true => exact ⟨[], by simp only [handle, hempty, if_true]; rfl⟩
    | false =>
      obtain ⟨path, hpath⟩ := player_respond files (typedLine text)
        (session.player.execute files (typedLine text)).1.reply
        { session with player := (session.player.execute files (typedLine text)).2 }
      refine ⟨[.line files (typedLine text), .point path], ?_⟩
      rw [handle_line hempty, hpath, Player.after_cons, Player.after_cons, Player.after_nil,
        Player.perform, Player.perform]
  | endOfInput => exact ⟨[], rfl⟩
  | tick => exact ⟨[.engine (.ask .tick)], rfl⟩
  | fileChanged path =>
    simp only [handle]
    split
    · exact ⟨[.reload files path], rfl⟩
    · exact ⟨[], rfl⟩

end Session

/-- **A songbook is read once more with all or nothing.**  Take any run of a player: lines are
taken for commands, files are read again, the path is changed, and in between the engine is
asked for anything and its host changes.  A file that cannot be loaded leaves the
player exactly as it was.  One that can gives its songbook to the engine, and touches nothing
else of the player.  Every voice that was playing has been released once.  The track that was
playing goes on just when it plays in the new songbook on this host; then all voices are new
ones with parts from there, and otherwise none is left. -/
theorem Player.reload_cases (book : Songbook) (unsupported : List Setting)
    (path : Option String) (colours : Bool) (steps : List Step) (files : Files) (file : String) :
    let player := (Player.mk (Engine.fresh book unsupported) path colours).after steps
    (∃ error, loadBook files file = .error error ∧
      player.reload files file = (.error error, player)) ∨
    ∃ loaded text left, loadBook files file = .ok loaded ∧
      player.reload files file = (.ok text, { player with engine := left }) ∧
      player.engine.Renews loaded left := by
  intro player
  obtain ⟨events, hengine⟩ :
      (Engine.fresh book unsupported).Leads player.engine := leads_after steps _
  have haccounted : player.engine.Accounted :=
    hengine ▸ Engine.accounted_after events (Engine.accounted_ofBook book _)
  have htidy : player.engine.toStage.Tidy :=
    hengine ▸ Engine.tidy_after book unsupported events
  cases hload : loadBook files file with
  | error error => exact .inl ⟨error, rfl, reload_of_error hload⟩
  | ok loaded =>
    obtain ⟨text, hreload⟩ := reload_of_ok hload player
    exact .inr ⟨loaded, text, _, rfl, hreload, Engine.renews_resume haccounted htidy loaded⟩

/-- A songbook with the longer one of the two parts of a brief track. -/
def shortBook : Songbook :=
  { Engine.briefBook with tracks := .ofList [("blip", ⟨60, false, ["ABCX14"]⟩)] }

/-- A folder in which every file holds this songbook. -/
def shortFiles : Files := ⟨"/", fun _ => .ok (.file (String.ofList shortBook.writeJson).toUTF8)⟩

/-- A player with both parts goes on with a third voice. -/
example :
    let player : Player Recorder :=
      ⟨(Engine.fresh Engine.briefBook []).after [.ask (.play "blip")], none, false⟩
    let renewed := (player.reload shortFiles "songs.json").2.engine
    renewed.playing? = some "blip" ∧ renewed.scheduler.tasks.map (·.handle) = [2] := by
  decide +kernel

end Console

end Chiptune
