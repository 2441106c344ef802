/-
  Nodes that cannot be heard.

  An oscillator that has not been started gives no sound, and the sound of one from which no
  wires lead to the destination goes nowhere.  Nodes of this kind may stand among others and
  lead to them: as long as the others do not lead back, these sound as they would on
  their own, sample by sample, and come to the same states.
-/
import Chiptune.Proofs.BlockSizes
import Chiptune.Proofs.Routes
import Mathlib.Data.List.Perm.Basic

set_option autoImplicit false

namespace Chiptune

/-! ## What a frame makes of nodes -/

/-- A node behind a frame. -/
def WiredNode.sampled (time : Float) (wired : WiredNode) : WiredNode :=
  match wired.node with
  | .oscillator tone => { wired with node := .oscillator (tone.sampleAt time).2 }
  | .effect _ => wired

/-- Whether an entry of a table is an oscillator. -/
def isTone (entry : NodeId × WiredNode) : Bool :=
  match entry.2.node with
  | .oscillator _ => true
  | .effect _ => false

/-- A sound behind another one. -/
def Stereo.add (sum sound : Stereo) : Stereo :=
  ⟨sum.left + sound.left, sum.right + sound.right⟩

namespace NodeTable

/-- The nodes behind a frame. -/
def sampled (time : Float) (table : NodeTable) : NodeTable :=
  table.map fun entry => (entry.1, entry.2.sampled time)

/-- What is heard of a node in a frame. -/
def audible (table : NodeTable) (time : Float) (entry : NodeId × WiredNode) : Option Stereo :=
  match entry.2.node with
  | .oscillator tone =>
    let sample := (tone.sampleAt time).1
    if sample == 0 then none else table.route entry.1 sample
  | .effect _ => none

variable {table other : NodeTable} {time : Float} {id : NodeId}

theorem lookup_sampled (time : Float) (id : NodeId) (table : NodeTable) :
    (table.sampled time).lookup id = (table.lookup id).map (·.sampled time) := by
  induction table with
  | nil => rfl
  | cons first rest ih =>
    obtain ⟨here, wired⟩ := first
    unfold sampled at ih ⊢
    rw [List.map_cons, lookup_cons, lookup_cons, ih]
    split <;> rfl

theorem output_sampled (time : Float) (wired : WiredNode) :
    (wired.sampled time).output = wired.output := by
  unfold WiredNode.sampled
  split <;> rfl

theorem isTone_sampled (time : Float) (entry : NodeId × WiredNode) :
    isTone (entry.1, entry.2.sampled time) = isTone entry := by
  obtain ⟨id, ⟨node, output⟩⟩ := entry
  cases node <;> rfl

theorem outputOf_sampled (time : Float) (id : NodeId) (table : NodeTable) :
    (table.sampled time).outputOf id = table.outputOf id := by
  rw [outputOf, outputOf, lookup_sampled]
  cases table.lookup id with
  | none => rfl
  | some wired => exact output_sampled time wired

/-- Effects are left as they are. -/
theorem lookup_of_lookup_sampled {effect : Effect} {output : Option NodeId}
    (h : (table.sampled time).lookup id = some ⟨.effect effect, output⟩) :
    table.lookup id = some ⟨.effect effect, output⟩ := by
  rw [lookup_sampled] at h
  obtain ⟨⟨node, wire⟩, hnode, heq⟩ := Option.map_eq_some_iff.1 h
  cases node with
  | oscillator tone => cases heq
  | effect given => rw [hnode, ← heq]; rfl

/-! ## Ways among fewer nodes -/

/-- A way lies in any table that has its nodes. -/
theorem Way.transfer {P : NodeId → Prop} {passed : List (NodeId × Effect)} {last : NodeId}
    (h : Way table id passed last) (hid : P id)
    (hstep : ∀ id effect next, P id → table.lookup id = some ⟨.effect effect, some next⟩ →
      other.lookup id = some ⟨.effect effect, some next⟩ ∧ P next) :
    Way other id passed last := by
  induction h with
  | here id => exact .here id
  | on hne hnode _ ih =>
    obtain ⟨hother, hnext⟩ := hstep _ _ _ hid hnode
    exact .on hne hother (ih hnext)

theorem reaches_of_sampled {passed : List (NodeId × Effect)}
    (h : (table.sampled time).Reaches id passed) : table.Reaches id passed := by
  obtain ⟨first, houtput, hway⟩ := h
  rw [outputOf_sampled] at houtput
  exact ⟨first, houtput, hway.transfer (P := fun _ => True) trivial
    fun _ _ _ _ hnode => ⟨lookup_of_lookup_sampled hnode, trivial⟩⟩

end NodeTable

/-! ## One table within another -/

/-- Apart from nodes with some numbers, which cannot be heard, a table is the same as another
one, with its oscillators in the same order. -/
structure Overlays (extra : List NodeId) (whole plain : NodeTable) : Prop where
  same : ∀ id ∉ extra, whole.lookup id = plain.lookup id
  /-- No wire leads to the further nodes from outside. -/
  apart : ∀ id ∉ extra, ∀ next ∈ plain.outputOf id, next ∉ extra
  outside : ∀ entry ∈ plain, entry.1 ∉ extra
  order : (whole.filter fun entry => isTone entry && decide (entry.1 ∉ extra)) =
    plain.filter isTone
  unheard : ∀ id tone output, (id, ⟨.oscillator tone, output⟩) ∈ whole → id ∈ extra →
    tone.startTime = none ∨ ∀ passed, ¬ whole.Reaches id passed

/-- An oscillator that has not been started gives no sample, and is not started by it. -/
theorem Oscillator.sampleAt_of_not_started {tone : Oscillator} (h : tone.startTime = none)
    (time : Float) :
    (tone.sampleAt time).1 = 0 ∧ (tone.sampleAt time).2.startTime = none := by
  have hadvanced : (tone.advanceTo time).startTime = none := h
  have hsilent : (tone.advanceTo time).sounds time = false := by simp [sounds, hadvanced]
  simp [sampleAt, hsilent, hadvanced]

theorem Oscillator.startTime_sampleAt (time : Float) (tone : Oscillator) :
    (tone.sampleAt time).2.startTime = tone.startTime := by
  unfold sampleAt
  simp only
  split <;> rfl

namespace Overlays

open NodeTable

variable {extra : List NodeId} {whole plain : NodeTable} {id : NodeId}

/-- The same ways lead on from a node of both tables. -/
theorem reaches_iff (h : Overlays extra whole plain) (hid : id ∉ extra)
    (passed : List (NodeId × Effect)) :
    whole.Reaches id passed ↔ plain.Reaches id passed := by
  have houtput : whole.outputOf id = plain.outputOf id := by
    rw [outputOf, outputOf, h.same id hid]
  have hleads : ∀ id effect next, id ∉ extra →
      plain.lookup id = some ⟨.effect effect, some next⟩ → next ∉ extra := by
    intro id effect next hid hnode
    exact h.apart id hid next (by rw [outputOf, hnode]; rfl)
  constructor
  · rintro ⟨first, hfirst, hway⟩
    rw [houtput] at hfirst
    refine ⟨first, hfirst, hway.transfer (P := (· ∉ extra)) (h.apart id hid first hfirst) ?_⟩
    intro id effect next hid hnode
    rw [h.same id hid] at hnode
    exact ⟨hnode, hleads id effect next hid hnode⟩
  · rintro ⟨first, hfirst, hway⟩
    refine ⟨first, houtput.trans hfirst,
      hway.transfer (P := (· ∉ extra)) (h.apart id hid first hfirst) ?_⟩
    intro id effect next hid hnode
    exact ⟨(h.same id hid).trans hnode, hleads id effect next hid hnode⟩

/-- However many nodes there are besides, a sound of a node of both tables comes as far. -/
theorem route_eq (h : Overlays extra whole plain) (hid : id ∉ extra) (sample : Float32) :
    whole.route id sample = plain.route id sample := by
  refine Option.ext fun heard => ?_
  simp only [route_eq_some_iff, h.reaches_iff hid]

theorem audible_eq (h : Overlays extra whole plain) (time : Float)
    {entry : NodeId × WiredNode} (hid : entry.1 ∉ extra) :
    whole.audible time entry = plain.audible time entry := by
  unfold audible
  split
  · simp only [h.route_eq hid]
  · rfl

/-- Nothing is heard of the further nodes. -/
theorem audible_eq_none (h : Overlays extra whole plain) (time : Float)
    {entry : NodeId × WiredNode} (hmem : entry ∈ whole) (hid : entry.1 ∈ extra) :
    whole.audible time entry = none := by
  obtain ⟨id, ⟨node, output⟩⟩ := entry
  cases node with
  | effect given => rfl
  | oscillator tone =>
    rcases h.unheard id tone output hmem hid with hstart | hnowhere
    · have hsilent : ((0 : Float32) == 0) = true := by decide +kernel
      simp [audible, Oscillator.sampleAt_of_not_started hstart, hsilent]
    · simp only [audible]
      split
      · rfl
      · refine Option.eq_none_iff_forall_ne_some.2 fun heard hheard => ?_
        obtain ⟨passed, hreaches, -⟩ := route_eq_some_iff.1 hheard
        exact hnowhere passed hreaches

theorem filterMap_filter_isTone (table nodes : NodeTable) (time : Float) :
    (nodes.filter isTone).filterMap (table.audible time) =
      nodes.filterMap (table.audible time) := by
  rw [List.filterMap_filter]
  refine List.filterMap_congr fun entry _ => ?_
  unfold isTone audible
  split <;> rfl

/-- What is heard in a frame is heard of the nodes of both tables. -/
theorem filterMap_audible (h : Overlays extra whole plain) (time : Float) :
    whole.filterMap (whole.audible time) = plain.filterMap (plain.audible time) := by
  calc whole.filterMap (whole.audible time)
      = (whole.filter fun entry => isTone entry && decide (entry.1 ∉ extra)).filterMap
          (whole.audible time) := by
        rw [List.filterMap_filter]
        refine List.filterMap_congr fun entry hmem => ?_
        by_cases hid : entry.1 ∈ extra
        · simp [hid, h.audible_eq_none time hmem hid]
        · cases htone : isTone entry with
          | true => simp [hid]
          | false =>
            simp only [Bool.false_and]
            unfold isTone at htone
            unfold audible
            split <;> simp_all
    _ = (plain.filter isTone).filterMap (whole.audible time) := by rw [h.order]
    _ = (plain.filter isTone).filterMap (plain.audible time) :=
        List.filterMap_congr fun entry hmem =>
          h.audible_eq time (h.outside entry (List.mem_filter.1 hmem).1)
    _ = plain.filterMap (plain.audible time) := filterMap_filter_isTone plain plain time

/-- A frame leaves it at that. -/
theorem sampled (h : Overlays extra whole plain) (time : Float) :
    Overlays extra (whole.sampled time) (plain.sampled time) where
  same id hid := by rw [lookup_sampled, lookup_sampled, h.same id hid]
  apart id hid next hnext := by
    rw [outputOf_sampled] at hnext
    exact h.apart id hid next hnext
  outside entry hmem := by
    obtain ⟨before, hbefore, rfl⟩ := List.mem_map.1 hmem
    exact h.outside before hbefore
  order := by
    unfold NodeTable.sampled
    rw [List.filter_map, List.filter_map]
    have horder := h.order
    simp only [Function.comp_def, isTone_sampled] at horder ⊢
    rw [horder]
  unheard id tone output hmem hid := by
    obtain ⟨⟨here, ⟨node, wire⟩⟩, hbefore, heq⟩ := List.mem_map.1 hmem
    cases node with
    | effect given => cases heq
    | oscillator before =>
      cases heq
      refine (h.unheard here before wire hbefore hid).imp ?_ ?_
      · intro hstart
        rw [Oscillator.startTime_sampleAt]
        exact hstart
      · intro hnowhere passed hreaches
        exact hnowhere passed (reaches_of_sampled hreaches)

end Overlays

/-! ## Rendering both tables -/

namespace Renderer

/-- In a frame, what is heard of the nodes is summed in their order. -/
theorem sampleNodes_eq (table : NodeTable) (time : Float) (nodes : NodeTable) (sum : Stereo) :
    sampleNodes table time nodes sum =
      ((nodes.filterMap (table.audible time)).foldl Stereo.add sum, nodes.sampled time) := by
  induction nodes generalizing sum with
  | nil => rfl
  | cons entry nodes ih =>
    obtain ⟨id, ⟨node, output⟩⟩ := entry
    cases node with
    | effect given =>
      simp only [sampleNodes, ih]
      rfl
    | oscillator tone =>
      have haudible : table.audible time (id, ⟨.oscillator tone, output⟩) =
          if (tone.sampleAt time).1 == 0 then none
          else table.route id (tone.sampleAt time).1 := rfl
      simp only [sampleNodes, ih, List.filterMap_cons, haudible]
      split <;> rename_i heq <;> rw [heq] <;> rfl

/-- Renderers of two such tables. -/
structure Together (extra : List NodeId) (whole plain : Renderer) : Prop where
  nodes : Overlays extra whole.nodes plain.nodes
  queue : whole.queue = [] ∧ plain.queue = []
  frames : whole.frames = plain.frames
  rate : whole.rate = plain.rate

namespace Together

variable {extra : List NodeId} {whole plain : Renderer}

theorem timeOf_eq (h : Together extra whole plain) :
    whole.timeOf whole.frames = plain.timeOf plain.frames := by
  rw [timeOf, timeOf, h.frames, h.rate]

/-- In a frame the same is heard. -/
theorem heard_eq (h : Together extra whole plain) : whole.heard = plain.heard := by
  simp only [heard, sampleNodes_eq, h.timeOf_eq, h.nodes.filterMap_audible]

theorem advanced (h : Together extra whole plain) :
    Together extra whole.advanced plain.advanced where
  nodes := by
    simp only [Renderer.advanced, sampleNodes_eq, h.timeOf_eq]
    exact h.nodes.sampled _
  queue := h.queue
  frames := congrArg (· + 1) h.frames
  rate := h.rate

/-- So it is frame after frame. -/
theorem foldl_renderFrame (h : Together extra whole plain) (frames : List (List Float32))
    (samples : Array Float32) :
    (frames.foldl renderFrame (samples, whole)).1 =
        (frames.foldl renderFrame (samples, plain)).1 ∧
      Together extra (frames.foldl renderFrame (samples, whole)).2
        (frames.foldl renderFrame (samples, plain)).2 := by
  induction frames generalizing whole plain samples with
  | nil => exact ⟨rfl, h⟩
  | cons frame frames ih =>
    rw [List.foldl_cons, List.foldl_cons, renderFrame_eq, renderFrame_eq]
    simp only [h.heard_eq]
    exact ih h.advanced _

theorem renderOver (h : Together extra whole plain) (block : Array Float32) (channels : Nat) :
    (whole.renderOver block channels).1 = (plain.renderOver block channels).1 ∧
      Together extra (whole.renderOver block channels).2 (plain.renderOver block channels).2 := by
  rw [Renderer.renderOver, Renderer.renderOver, applyQueue_of_nil h.queue.1,
    applyQueue_of_nil h.queue.2]
  exact h.foldl_renderFrame _ #[]

end Together

/-- Renders over blocks one after the other, each with a number of channels. -/
def renderEach : List (Array Float32 × Nat) → Renderer → List (Array Float32) × Renderer
  | [], renderer => ([], renderer)
  | (block, channels) :: blocks, renderer =>
    let (samples, renderer) := renderer.renderOver block channels
    let (others, renderer) := renderEach blocks renderer
    (samples :: others, renderer)

/-- And block after block. -/
theorem Together.renderEach {extra : List NodeId} {whole plain : Renderer}
    (h : Together extra whole plain) (blocks : List (Array Float32 × Nat)) :
    (renderEach blocks whole).1 = (renderEach blocks plain).1 ∧
      Together extra (renderEach blocks whole).2 (renderEach blocks plain).2 := by
  induction blocks generalizing whole plain with
  | nil => exact ⟨rfl, h⟩
  | cons first blocks ih =>
    obtain ⟨block, channels⟩ := first
    obtain ⟨hsamples, hnext⟩ := h.renderOver block channels
    obtain ⟨hothers, hafter⟩ := ih hnext
    exact ⟨congrArg₂ List.cons hsamples hothers, hafter⟩

end Renderer

/-! ## Tables with further nodes -/

namespace NodeTable

variable {table whole plain extra : NodeTable} {id : NodeId}

theorem lookup_eq_some_iff {wired : WiredNode} (h : table.ids.Nodup) :
    table.lookup id = some wired ↔ (id, wired) ∈ table := by
  induction table with
  | nil => simp
  | cons first rest ih =>
    obtain ⟨here, found⟩ := first
    obtain ⟨hfirst, hrest⟩ := List.nodup_cons.1 h
    rw [lookup_cons, List.mem_cons, Prod.mk.injEq]
    by_cases heq : id = here
    · subst heq
      have hnot : (id, wired) ∉ rest := fun hmem => hfirst (List.mem_map.2 ⟨_, hmem, rfl⟩)
      simp [hnot, eq_comm]
    · simp [heq, ih hrest]

/-- A table holds the nodes of another one and further nodes, which cannot be heard. -/
structure HoldsUnheard (whole plain extra : NodeTable) : Prop where
  distinct : whole.ids.Nodup
  nodes : whole.Perm (plain ++ extra)
  /-- The oscillators of the other table stand in their order. -/
  order : (plain.filter isTone).Sublist whole
  /-- None of its wires leads to a further node. -/
  apart : ∀ entry ∈ plain, ∀ next ∈ entry.2.output, next ∉ extra.ids
  /-- A further oscillator has not been started, or there is no way from it to the
  destination. -/
  unheard : ∀ id tone output, (id, ⟨.oscillator tone, output⟩) ∈ extra →
    tone.startTime = none ∨ ∀ passed, ¬ whole.Reaches id passed

theorem HoldsUnheard.overlays (h : HoldsUnheard whole plain extra) :
    Overlays extra.ids whole plain := by
  have hids : (plain ++ extra).ids.Nodup := (h.nodes.map _).nodup_iff.1 h.distinct
  rw [ids, List.map_append] at hids
  obtain ⟨hplain, -, hdisjoint⟩ := List.nodup_append'.1 hids
  have hnumber : ∀ {id wired}, (id, wired) ∈ extra → id ∈ extra.ids :=
    fun hmem => List.mem_map_of_mem hmem
  have houtside : ∀ entry ∈ plain, entry.1 ∉ extra.ids :=
    fun entry hmem hin => hdisjoint (List.mem_map_of_mem hmem) hin
  refine
    { same := ?_, apart := ?_, outside := houtside, order := ?_, unheard := ?_ }
  · intro id hid
    refine Option.ext fun wired => ?_
    rw [lookup_eq_some_iff h.distinct, lookup_eq_some_iff hplain, h.nodes.mem_iff,
      List.mem_append]
    exact or_iff_left fun hmem => hid (hnumber hmem)
  · intro id hid next hnext
    obtain ⟨wired, hwired, hnext⟩ := Option.bind_eq_some_iff.1 hnext
    exact h.apart _ ((lookup_eq_some_iff hplain).1 hwired) next hnext
  · -- as many oscillators stand in the one list as in the other, and in the same order
    have hkept : (plain.filter isTone).filter
        (fun entry => isTone entry && decide (entry.1 ∉ extra.ids)) = plain.filter isTone := by
      refine List.filter_eq_self.2 fun entry hmem => ?_
      obtain ⟨hmem, htone⟩ := List.mem_filter.1 hmem
      simp [htone, houtside entry hmem]
    have hsublist := h.order.filter fun entry => isTone entry && decide (entry.1 ∉ extra.ids)
    rw [hkept] at hsublist
    refine (hsublist.eq_of_length ?_).symm
    have hnone : extra.filter (fun entry => isTone entry && decide (entry.1 ∉ extra.ids)) = [] := by
      refine List.filter_eq_nil_iff.2 fun entry hmem => ?_
      simp [List.mem_map_of_mem (f := Prod.fst) hmem, ids]
    rw [(h.nodes.filter _).length_eq, List.filter_append, hnone, List.append_nil]
    refine congrArg List.length (List.filter_congr fun entry hmem => ?_)
    simp [houtside entry hmem]
  · intro id tone output hmem hid
    rcases List.mem_append.1 (h.nodes.mem_iff.1 hmem) with hmem | hmem
    · exact absurd hid (houtside _ hmem)
    · exact h.unheard id tone output hmem

end NodeTable

namespace Renderer

/-- Two renderings with the same samples, the same clock, and the same states of nodes with
some numbers. -/
structure Alike (ids : List NodeId) (first second : List (Array Float32) × Renderer) : Prop where
  samples : first.1 = second.1
  clock : first.2.frames = second.2.frames
  states : ∀ id ∈ ids, first.2.nodes.lookup id = second.2.nodes.lookup id

/-- **Nodes that cannot be heard make no difference.**  Whatever blocks are rendered, on however
many channels, the samples are those of the other nodes alone, and so are the clock and the
states of these nodes. -/
theorem renderEach_unheard {whole plain extra : NodeTable}
    (h : whole.HoldsUnheard plain extra) (frames : UInt64) (rate : Float)
    (blocks : List (Array Float32 × Nat)) :
    Alike plain.ids (renderEach blocks ⟨whole, [], frames, rate⟩)
      (renderEach blocks ⟨plain, [], frames, rate⟩) := by
  have htogether : Together extra.ids ⟨whole, [], frames, rate⟩ ⟨plain, [], frames, rate⟩ :=
    ⟨h.overlays, ⟨rfl, rfl⟩, rfl, rfl⟩
  obtain ⟨hsamples, hafter⟩ := htogether.renderEach blocks
  refine ⟨hsamples, hafter.frames, fun id hmem => hafter.nodes.same id ?_⟩
  obtain ⟨entry, hentry, rfl⟩ := List.mem_map.1 hmem
  exact h.overlays.outside entry hentry

/-- An oscillator that sounds from the beginning. -/
def squareTone : Oscillator :=
  { Oscillator.silent .square (Float32.ofNat 1000) with
    frequency := Float32.ofNat 100
    startTime := some 0 }

/-- Two voices, one of them by way of an effect. -/
def twoVoices : NodeTable :=
  [(1, ⟨.oscillator squareTone, some 2⟩), (2, ⟨.effect ⟨.gain, 0.5⟩, some destination⟩),
    (3, ⟨.oscillator squareTone, some destination⟩)]

/-- An oscillator that leads to one of these voices and has not been started, and one that
has been started and leads into a circle. -/
def hushedNodes : NodeTable :=
  [(4, ⟨.oscillator (.silent .sine (Float32.ofNat 1000)), some 2⟩),
    (5, ⟨.oscillator squareTone, some 6⟩), (6, ⟨.effect ⟨.gain, 0.5⟩, some 7⟩),
    (7, ⟨.effect ⟨.pan, -1⟩, some 6⟩)]

/-- All of these nodes. -/
def mixedNodes : NodeTable :=
  hushedNodes.take 2 ++ twoVoices ++ hushedNodes.drop 2

/-- The sound that goes in a circle does not come to the destination. -/
theorem not_reaches_of_circle (passed : List (NodeId × Effect)) :
    ¬ mixedNodes.Reaches 5 passed := by
  rintro ⟨first, houtput, hway⟩
  cases houtput
  have hpan : mixedNodes.Way 7 [(7, ⟨.pan, -1⟩)] 6 := .on (by decide) rfl (.here 6)
  have hround : mixedNodes.Way 6 [(6, ⟨.gain, 0.5⟩), (7, ⟨.pan, -1⟩)] 6 :=
    .on (by decide) rfl hpan
  exact hway.not_circles (.inl rfl) ⟨[], 6, _, .here 6, hround, List.cons_ne_nil _ _⟩

theorem mixedNodes_holds : mixedNodes.HoldsUnheard twoVoices hushedNodes where
  distinct := by decide
  nodes := by
    have hfront : (hushedNodes.take 2 ++ twoVoices).Perm (twoVoices ++ hushedNodes.take 2) :=
      List.perm_append_comm
    have hwhole := hfront.append_right (hushedNodes.drop 2)
    rwa [List.append_assoc twoVoices, List.take_append_drop] at hwhole
  order := by
    have hvoices : twoVoices.Sublist mixedNodes :=
      (List.sublist_append_right _ _).trans (List.sublist_append_left _ _)
    exact List.filter_sublist.trans hvoices
  apart := by
    simp only [twoVoices, List.forall_mem_cons, Option.mem_some_iff, forall_eq']
    decide
  unheard := by
    intro id tone output hmem
    simp only [hushedNodes, List.mem_cons, Prod.mk.injEq, WiredNode.mk.injEq,
      SoundNode.oscillator.injEq, reduceCtorEq, false_and, and_false, List.not_mem_nil,
      or_false] at hmem
    rcases hmem with ⟨rfl, rfl, -⟩ | ⟨rfl, -, -⟩
    · exact .inl rfl
    · exact .inr not_reaches_of_circle

/-- The two voices on two channels and then on one, with the further nodes among them. -/
theorem renderEach_mixedNodes :
    mixedNodes.HoldsUnheard twoVoices hushedNodes ∧
      Alike twoVoices.ids (renderEach [(#[9, 9, 9], 2), (#[9], 1)] ⟨mixedNodes, [], 0, 1000⟩)
        (renderEach [(#[9, 9, 9], 2), (#[9], 1)] ⟨twoVoices, [], 0, 1000⟩) :=
  ⟨mixedNodes_holds, renderEach_unheard mixedNodes_holds 0 1000 _⟩

end Renderer

end Chiptune
