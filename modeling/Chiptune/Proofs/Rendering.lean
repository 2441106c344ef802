/-
  A renderer that follows an engine.

  The calls that an engine makes on its graph are sent to a renderer and carried out in
  order.  Between two requests the renderer then has the nodes of the voices that play and
  no others, and each of these voices is wired up and sounds as its instrument says.
-/
import Chiptune.Proofs.Casting
import Chiptune.Proofs.Refusals
import Chiptune.Proofs.SessionRuns
import Chiptune.Sound.Renderer

set_option autoImplicit false

namespace Chiptune

open AudioGraph

/-! ## Calls that are carried out -/

namespace Renderer

/-- Sends calls in order and carries them out. -/
def fed (calls : List Call) (renderer : Renderer) : Renderer :=
  (calls.foldl (fun renderer call => renderer.send call) renderer).applyQueue

theorem foldl_send (calls : List Call) (renderer : Renderer) :
    calls.foldl (fun renderer call => renderer.send call) renderer =
      { renderer with queue := renderer.queue ++ calls } := by
  induction calls generalizing renderer with
  | nil => simp
  | cons call calls ih =>
    rw [List.foldl_cons, ih, send]
    simp

theorem nodes_fed (rate : Float) (frames : UInt64) (calls : List Call) :
    ((silent rate frames).fed calls).nodes = NodeTable.applyAll rate.toFloat32 calls [] := by
  rw [fed, foldl_send]
  rfl

end Renderer

/-- A table has a voice that plays a part: its nodes are wired up, and its oscillator, which
has been started and not stopped, has the waveform of the instrument. -/
structure NodeTable.Renders (table : NodeTable) (voice : Voice) (part : PlannedPart) : Prop where
  first : voice.chain.nodes.head? = some voice.oscillator
  /-- Each node passes its sound on to the next one, and the last one to the destination. -/
  linked : (voice.chain.nodes ++ [destination]).IsChain fun node next =>
    ∃ wired, table.lookup node = some wired ∧ wired.output = some next
  sounds : ∃ tone output, table.lookup voice.oscillator = some ⟨.oscillator tone, output⟩ ∧
    tone.waveform = part.instrument.waveform ∧ tone.startTime.isSome = true ∧
    tone.stopTime = none
  effects : ∀ node ∈ voice.chain.nodes, node ≠ voice.oscillator →
    ∃ effect output, table.lookup node = some ⟨.effect effect, output⟩

namespace Recorder

variable {voices : List Voice} {recorder : Recorder} {node : NodeId} {rate : Float32}

/-- The table that the calls of a record leave. -/
def table (rate : Float32) (recorder : Recorder) : NodeTable :=
  NodeTable.applyAll rate recorder.calls []

theorem table_eq (rate : Float32) {recorder other : Recorder} (call : Call)
    (h : other.calls = recorder.calls ++ [call]) :
    other.table rate = (recorder.table rate).apply rate call := by
  rw [table, h]
  exact List.foldl_append

/-- The destination is no node of a table. -/
theorem kept_lookup_destination (rate : Float32) :
    AudioGraph.Kept fun recorder : Recorder =>
      destination < recorder.nextNode ∧ (recorder.table rate).lookup destination = none where
  newOscillator := by
    rintro waveform recorder ⟨hpositive, hnone⟩
    obtain ⟨_, _, heq | heq⟩ := newOscillator_cases waveform recorder
    · rw [heq]
      exact ⟨hpositive, hnone⟩
    · rw [heq]
      refine ⟨Nat.succ_pos _, ?_⟩
      rw [table_eq rate (.newOscillator recorder.nextNode waveform) rfl, NodeTable.apply,
        NodeTable.lookup_insert, if_neg (Nat.ne_of_lt hpositive)]
      exact hnone
  newEffect := by
    rintro effect - recorder ⟨hpositive, hnone⟩
    rcases newEffect_cases effect recorder with heq | heq
    · rw [heq]
      exact ⟨hpositive, hnone⟩
    · rw [heq]
      refine ⟨Nat.succ_pos _, ?_⟩
      rw [table_eq rate (.newEffect recorder.nextNode effect) rfl, NodeTable.apply,
        NodeTable.lookup_insert, if_neg (Nat.ne_of_lt hpositive)]
      exact hnone
  wire := by
    rintro source target recorder ⟨hpositive, hnone⟩
    rcases wire_cases source target recorder with ⟨_, heq⟩ | heq
    · rw [heq]
      exact ⟨hpositive, hnone⟩
    · rw [heq]
      refine ⟨hpositive, ?_⟩
      rw [table_eq rate (.wire source target) rfl, NodeTable.apply, NodeTable.lookup_modify,
        hnone]
      split <;> rfl
  signal := by
    rintro given recorder ⟨hpositive, hnone⟩
    refine ⟨hpositive, ?_⟩
    rw [table_eq rate (.signal given) rfl]
    cases given with
    | detach other =>
      rw [NodeTable.apply, NodeTable.lookup_erase, hnone]
      split <;> rfl
    | _ =>
      rw [NodeTable.apply, NodeTable.modifyTone, NodeTable.lookup_modify, hnone]
      split <;> rfl

/-- The nodes in a table are those in use. -/
theorem Tended.ids_perm (h : Tended voices [] recorder)
    (hdestination : (recorder.table rate).lookup destination = none) :
    (recorder.table rate).ids.Perm (voices.flatMap (·.chain.nodes)) := by
  have hids : (recorder.table rate).ids.Nodup :=
    NodeTable.nodup_applyAll rate recorder.calls List.nodup_nil
  refine (List.perm_ext_iff_of_nodup hids h.nodup).2 ?_
  intro node
  rw [NodeTable.mem_ids_iff]
  constructor
  · intro hsome
    by_contra hout
    have hnode : node ≠ destination := by
      rintro rfl
      rw [hdestination] at hsome
      cases hsome
    rcases Nat.lt_or_ge node recorder.nextNode with hlt | hle
    · have hgone := shows_applyAll rate recorder.calls (h.gone node hnode hlt hout)
      rw [table, hgone] at hsome
      cases hsome
    · have hunborn := shows_applyAll rate recorder.calls (h.unborn node hle)
      rw [table, hunborn.1] at hsome
      cases hsome
  · intro hmem
    obtain ⟨voice, hvoice, hin⟩ := List.mem_flatMap.1 hmem
    have hshows := shows_applyAll rate recorder.calls (h.playing voice hvoice node hin)
    split at hshows
    · obtain ⟨tone, hentry, -⟩ := hshows
      rw [table, hentry]
      rfl
    · obtain ⟨effect, hentry⟩ := hshows
      rw [table, hentry]
      rfl

/-- A voice that plays a part is in the table as it should be. -/
theorem Tended.renders {voice : Voice} {part : PlannedPart} (h : Tended voices [] recorder)
    (hvoice : voice ∈ voices) (hplays : Plays recorder.calls voice part) :
    (recorder.table rate).Renders voice part := by
  have hshows : ∀ node ∈ voice.chain.nodes, _ := fun node hmem =>
    shows_applyAll rate recorder.calls (h.playing voice hvoice node hmem)
  have hfirst := h.chains voice hvoice
  have hwired : ∀ node ∈ voice.chain.nodes, ∀ next,
      targetOf node recorder.calls = some next →
      ∃ wired, (recorder.table rate).lookup node = some wired ∧ wired.output = some next := by
    intro node hmem next hnext
    have hentry := hshows node hmem
    split at hentry
    · obtain ⟨tone, hentry, -⟩ := hentry
      exact ⟨_, hentry, hnext⟩
    · obtain ⟨effect, hentry⟩ := hentry
      exact ⟨_, hentry, hnext⟩
  refine { first := hfirst, linked := ?_, sounds := ?_, effects := ?_ }
  · obtain ⟨hinner, -, hlast⟩ := List.isChain_append.1 hplays.linked
    refine List.isChain_append.2 ⟨?_, List.isChain_singleton _, ?_⟩
    · exact hinner.imp_of_mem_imp fun node next hmem _ hnext => hwired node hmem next hnext
    · intro last hmem next hnext
      exact hwired last (List.mem_of_getLast? hmem) next (hlast last hmem next hnext)
  · have hentry := hshows voice.oscillator (List.mem_of_mem_head? hfirst)
    rw [if_pos rfl] at hentry
    obtain ⟨tone, hentry, hwaveform, hstart, hstop⟩ := hentry
    rw [hplays.waveform] at hwaveform
    exact ⟨tone, _, hentry, (Option.some.inj hwaveform).symm, hstart, hstop⟩
  · intro node hmem hne
    have hentry := hshows node hmem
    rw [if_neg hne] at hentry
    obtain ⟨effect, hentry⟩ := hentry
    exact ⟨effect, _, hentry⟩

end Recorder

namespace Engine

/-! ## A renderer over a whole run -/

/-- The nodes of a renderer that was sent the calls of an engine. -/
def rendered (rate : Float) (frames : UInt64) (engine : Engine Recorder) : NodeTable :=
  ((Renderer.silent rate frames).fed engine.graph.calls).nodes

theorem rendered_eq (rate : Float) (frames : UInt64) (engine : Engine Recorder) :
    engine.rendered rate frames = engine.graph.table rate.toFloat32 :=
  Renderer.nodes_fed rate frames engine.graph.calls

/-- A renderer is in step with an engine whose sessions began with these openings. -/
structure InStep (rate : Float) (frames : UInt64) (openings : List Opening)
    (engine : Engine Recorder) : Prop where
  /-- The renderer has the nodes of the voices that play, each of them once. -/
  nodes : (engine.rendered rate frames).ids.Perm
    (engine.scheduler.tasks.flatMap (·.voice.chain.nodes))
  distinct : (engine.rendered rate frames).ids.Nodup
  /-- A voice has one part in the session that began last. -/
  parts : ((castOf openings).map (·.1)).Nodup
  /-- The renderer has every voice as its part wants it. -/
  voices : ∀ task ∈ engine.scheduler.tasks, ∃ part, (task.handle, part) ∈ castOf openings ∧
    (engine.rendered rate frames).Renders task.voice part
  /-- Nothing is left when a session has ended, has been stopped or could not begin. -/
  idle : engine.session = none → engine.rendered rate frames = []
  stopped : engine.stop.rendered rate frames = []
  ended : engine.tick.2.session = none → engine.tick.2.rendered rate frames = []
  refused : ∀ name fault, (engine.play name).1 = .error (.graph fault) →
    (engine.play name).2.rendered rate frames = []

variable {engine : Engine Recorder} {rate : Float} {frames : UInt64}

/-- What holds of the nodes between two requests. -/
structure Rendering (engine : Engine Recorder) : Prop where
  accounted : engine.Accounted
  tidy : engine.toStage.Tidy
  destination : ∀ rate, Chiptune.destination < engine.graph.nextNode ∧
    (engine.graph.table rate).lookup Chiptune.destination = none

theorem Rendering.serve (h : engine.Rendering) (request : Request) :
    (engine.serve request).2.Rendering where
  accounted := accounted_serve h.accounted request
  tidy := kept_serve Stage.kept_tidy request h.tidy
  destination := fun rate =>
    kept_serve (Recorder.kept_lookup_destination rate).stage request (h.destination rate)

/-- The renderer has the nodes of the voices that play. -/
theorem Rendering.ids_perm (h : engine.Rendering) (rate : Float) (frames : UInt64) :
    (engine.rendered rate frames).ids.Perm
      (engine.scheduler.tasks.flatMap (·.voice.chain.nodes)) := by
  have hperm := h.tidy.tended.ids_perm (h.destination rate.toFloat32).2
  rwa [Scheduler.voices, List.flatMap_map, ← rendered_eq rate frames] at hperm

/-- Without a session it has none. -/
theorem Rendering.nil_of_idle (h : engine.Rendering) (hsession : engine.session = none)
    (rate : Float) (frames : UInt64) : engine.rendered rate frames = [] := by
  obtain ⟨htasks, -⟩ := List.append_eq_nil_iff.1 (h.accounted.idle hsession)
  have hperm := h.ids_perm rate frames
  rw [List.map_eq_nil_iff.1 htasks] at hperm
  exact List.map_eq_nil_iff.1 hperm.eq_nil

theorem rendering_after (book : Songbook) (unsupported : List Setting) (events : List Event) :
    ((fresh book unsupported).after events).Rendering where
  accounted := accounted_after events (accounted_ofBook book _)
  tidy := tidy_after book unsupported events
  destination := by
    intro rate
    refine kept_after (Recorder.kept_lookup_destination rate).stage ?_ events ⟨Nat.one_pos, rfl⟩
    rintro change stage ⟨hpositive, hnone⟩
    obtain ⟨hcalls, hnext⟩ := calls_apply change stage.graph
    rw [Recorder.table, hcalls, hnext]
    exact ⟨hpositive, hnone⟩

/-- **A renderer that is sent the calls of an engine is in step with it.**  Take any run of
an engine over a recorder, whatever is refused in it.  Carried out in order, the calls
leave the nodes of the voices that play and no others; each voice is wired through to the
destination, and its oscillator sounds with the waveform of its instrument; and where no
session is left, no node is. -/
theorem inStep_after (book : Songbook) (unsupported : List Setting) (events : List Event)
    (rate : Float) (frames : UInt64) :
    ((fresh book unsupported).after events).InStep rate frames
      ((fresh book unsupported).gather opened (events.map Event.turn)) := by
  have hcast := cast_after book unsupported events
  have h := rendering_after book unsupported events
  have hopenings : ∀ opening ∈ (fresh book unsupported).gather opened (events.map Event.turn),
      opening.voices.Nodup ∧ opening.voices.length = opening.parts.length :=
    forall_mem_gather (fun _ _ haccounted _ hmem =>
      ⟨nodup_of_opened haccounted hmem, length_of_opened haccounted hmem⟩) _
      (accounted_ofBook book _)
  generalize (fresh book unsupported).after events = engine at hcast h
  refine
    { nodes := h.ids_perm rate frames, distinct := ?_, parts := ?_, voices := ?_
      idle := fun hsession => h.nil_of_idle hsession rate frames, stopped := ?_, ended := ?_
      refused := ?_ }
  · rw [rendered_eq]
    exact NodeTable.nodup_applyAll _ _ List.nodup_nil
  · unfold castOf
    cases hlast : ((fresh book unsupported).gather opened (events.map Event.turn)).getLast? with
    | none => exact List.nodup_nil
    | some opening =>
      obtain ⟨hnodup, hlength⟩ := hopenings opening (List.mem_of_getLast? hlast)
      have hvoices : opening.cast.map (·.1) = opening.voices :=
        List.map_fst_zip (Nat.le_of_eq hlength)
      rw [Option.map_some, Option.getD_some, hvoices]
      exact hnodup
  · intro task hmem
    obtain ⟨part, hpart, hplays⟩ := hcast task hmem
    refine ⟨part, hpart, ?_⟩
    rw [rendered_eq]
    exact h.tidy.tended.renders (List.mem_map_of_mem hmem) hplays
  · refine (h.serve .stop).nil_of_idle ?_ rate frames
    rw [Engine.serve, stop_eq]
  · intro hsession
    exact (h.serve .tick).nil_of_idle hsession rate frames
  · intro name fault herror
    exact (h.serve (.play name)).nil_of_idle (session_of_refused herror) rate frames

/-- A songbook with an instrument that has a level, and a track with a silent part. -/
def softBook : Songbook :=
  ⟨Table.empty.insert "ABC" ⟨.square, some 0.5, none⟩,
    Table.empty.insert "song" ⟨60, false, ["ABC", "ABCC44"]⟩⟩

/-- While the track plays, the renderer has the nodes of the other part. -/
example :
    (((fresh softBook []).play "song").2.rendered 48000 0).map
      (fun entry => (entry.1, entry.2.output)) = [(3, some 4), (4, some destination)] := by
  decide +kernel

end Engine

end Chiptune
