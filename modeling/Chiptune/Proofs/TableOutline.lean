/-
  The outline of a table of nodes.

  The outline says of each node what it is and where its sound goes, and nothing of what it
  sounds like at the moment.  Calls change the outline in the same way whatever
  the nodes sound like, and rendering does not change it.
-/
import Chiptune.Proofs.TableEntries
import Chiptune.Sound.Renderer

set_option autoImplicit false

namespace Chiptune

/-- What a node is. -/
inductive NodeOutline where
  | oscillator (waveform : Waveform)
  | effect (effect : Effect)
  deriving DecidableEq

/-- What a node is, whatever it sounds like. -/
def SoundNode.outline : SoundNode → NodeOutline
  | oscillator tone => .oscillator tone.waveform
  | effect given => .effect given

namespace NodeTable

/-- The nodes of a table, what they are, and where their sound goes. -/
def outline (table : NodeTable) : List (NodeId × NodeOutline × Option NodeId) :=
  table.map fun entry => (entry.1, entry.2.node.outline, entry.2.output)

variable {table other : NodeTable} {id : NodeId}

@[simp] theorem outline_cons (entry : NodeId × WiredNode) (table : NodeTable) :
    outline (entry :: table) = (entry.1, entry.2.node.outline, entry.2.output) :: table.outline :=
  rfl

theorem ids_eq_outline (table : NodeTable) : table.ids = table.outline.map (·.1) := by
  rw [outline, List.map_map]
  rfl

/-! ## Calls -/

/-- A node is entered at the same place in tables of one outline. -/
theorem outline_insert_congr {node made : SoundNode} (hnode : node.outline = made.outline)
    (h : table.outline = other.outline) :
    (table.insert id node).outline = (other.insert id made).outline := by
  induction table generalizing other with
  | nil =>
    cases other with
    | nil => simp [insert, hnode]
    | cons second others => cases h
  | cons first rest ih =>
    cases other with
    | nil => cases h
    | cons second others =>
      obtain ⟨here, wired⟩ := first
      obtain ⟨there, joined⟩ := second
      rw [outline_cons, outline_cons] at h
      obtain ⟨hentry, hrest⟩ := List.cons.inj h
      obtain ⟨rfl, hwired⟩ := Prod.mk.inj hentry
      unfold insert
      split
      · rw [outline_cons, outline_cons, hrest, hnode]
      · rw [outline_cons, outline_cons, ih hrest, hwired]

theorem outline_wire (source target : NodeId) (table : NodeTable) :
    (table.modify source fun wired => { wired with output := some target }).outline =
      table.outline.map fun entry =>
        (entry.1, entry.2.1, if entry.1 = source then some target else entry.2.2) := by
  rw [outline, outline, modify, List.map_map, List.map_map]
  refine List.map_congr_left fun entry _ => ?_
  simp only [Function.comp_apply]
  split <;> rfl

theorem outline_erase (id : NodeId) (table : NodeTable) :
    (table.erase id).outline = table.outline.filter fun entry => entry.1 != id := by
  rw [outline, outline, erase, List.filter_map]
  rfl

/-- What is done to a tone does not show as long as it keeps its waveform. -/
theorem outline_modifyTone {change : Oscillator → Oscillator}
    (hchange : ∀ tone, (change tone).waveform = tone.waveform) (id : NodeId)
    (table : NodeTable) : (table.modifyTone id change).outline = table.outline := by
  rw [outline, outline, modifyTone, modify, List.map_map]
  refine List.map_congr_left fun entry _ => ?_
  obtain ⟨here, ⟨node, output⟩⟩ := entry
  simp only [Function.comp_apply]
  split
  · cases node with
    | oscillator tone => simp only [SoundNode.outline, hchange]
    | effect given => rfl
  · rfl

theorem outline_modifyTone_congr {change : Oscillator → Oscillator}
    (hchange : ∀ tone, (change tone).waveform = tone.waveform)
    (h : table.outline = other.outline) :
    (table.modifyTone id change).outline = (other.modifyTone id change).outline := by
  rw [outline_modifyTone hchange, outline_modifyTone hchange, h]

/-- A call does to the outline of a table what it does to that of any other like it. -/
theorem outline_apply_congr (rate : Float32) (call : Call) (h : table.outline = other.outline) :
    (table.apply rate call).outline = (other.apply rate call).outline := by
  cases call with
  | newOscillator id waveform => exact outline_insert_congr rfl h
  | newEffect id effect => exact outline_insert_congr rfl h
  | wire source target => rw [apply, apply, outline_wire, outline_wire, h]
  | signal given =>
    cases given with
    | detach id => rw [apply, apply, outline_erase, outline_erase, h]
    | start id time => exact outline_modifyTone_congr (fun _ => rfl) h
    | stop id time => exact outline_modifyTone_congr (fun _ => rfl) h
    | tune id hz time => exact outline_modifyTone_congr (fun _ => rfl) h

/-- So do several calls. -/
theorem outline_applyAll_congr (rate : Float32) (calls : List Call)
    (h : table.outline = other.outline) :
    (table.applyAll rate calls).outline = (other.applyAll rate calls).outline := by
  induction calls generalizing table other with
  | nil => exact h
  | cons call calls ih => exact ih (outline_apply_congr rate call h)

theorem applyAll_append (rate : Float32) (first second : List Call) (table : NodeTable) :
    table.applyAll rate (first ++ second) = (table.applyAll rate first).applyAll rate second :=
  List.foldl_append

/-! ## The numbers of the nodes -/

/-- A new number comes last. -/
theorem ids_insert_of_not_mem {node : SoundNode} (h : id ∉ table.ids) :
    (table.insert id node).ids = table.ids ++ [id] := by
  induction table with
  | nil => rfl
  | cons first rest ih =>
    obtain ⟨here, wired⟩ := first
    have hne : here ≠ id := (List.ne_of_not_mem_cons h).symm
    unfold insert
    rw [if_neg hne]
    exact congrArg (here :: ·) (ih (List.not_mem_of_not_mem_cons h))

theorem ids_erase (id : NodeId) (table : NodeTable) :
    (table.erase id).ids = table.ids.filter (· != id) := by
  rw [ids, ids, erase, List.filter_map]
  rfl

theorem ids_wire (rate : Float32) (source target : NodeId) (table : NodeTable) :
    (table.apply rate (.wire source target)).ids = table.ids := by
  rw [apply, ids_modify]

theorem ids_signal (table : NodeTable) (rate : Float32) {given : Signal}
    (h : ∀ node, given ≠ .detach node) :
    (table.apply rate (.signal given)).ids = table.ids := by
  cases given with
  | detach node => exact absurd rfl (h node)
  | _ => rw [apply, modifyTone, ids_modify]

end NodeTable

/-! ## Rendering -/

/-- A sample leaves the waveform as it is. -/
theorem Oscillator.waveform_sampleAt (time : Float) (tone : Oscillator) :
    (tone.sampleAt time).2.waveform = tone.waveform := by
  unfold sampleAt
  simp only
  split <;> rfl

namespace Renderer

theorem outline_sampleNodes (table : NodeTable) (time : Float) (nodes : NodeTable)
    (sum : Stereo) : (sampleNodes table time nodes sum).2.outline = nodes.outline := by
  induction nodes generalizing sum with
  | nil => rfl
  | cons entry nodes ih =>
    obtain ⟨id, ⟨node, output⟩⟩ := entry
    cases node with
    | oscillator tone =>
      have htone := tone.waveform_sampleAt time
      simp only [sampleNodes, NodeTable.outline_cons, SoundNode.outline, ih, htone]
    | effect given => simp only [sampleNodes, NodeTable.outline_cons, ih]

/-- A frame changes nothing but the sound of the nodes and the clock. -/
structure Keeps (before after : Renderer) : Prop where
  outline : after.nodes.outline = before.nodes.outline
  queue : after.queue = before.queue
  rate : after.rate = before.rate

theorem keeps_renderFrame (done : Array Float32 × Renderer) (frame : List Float32) :
    Keeps done.2 (renderFrame done frame).2 :=
  ⟨outline_sampleNodes _ _ _ _, rfl, rfl⟩

/-- So do several frames. -/
theorem keeps_renderFrames (frames : List (List Float32)) (done : Array Float32 × Renderer) :
    Keeps done.2 (frames.foldl renderFrame done).2 := by
  induction frames generalizing done with
  | nil => exact ⟨rfl, rfl, rfl⟩
  | cons frame frames ih =>
    have hfirst := keeps_renderFrame done frame
    have hothers := ih (renderFrame done frame)
    exact ⟨hothers.outline.trans hfirst.outline, hothers.queue.trans hfirst.queue,
      hothers.rate.trans hfirst.rate⟩

/-- A block is rendered when the calls that wait have been carried out. -/
theorem keeps_renderOver (block : Array Float32) (channels : Nat) (renderer : Renderer) :
    Keeps renderer.applyQueue (renderer.renderOver block channels).2 :=
  keeps_renderFrames _ (#[], renderer.applyQueue)

end Renderer

end Chiptune
