/-
  The calls on their way to the renderer of a device.

  A device notes which nodes are live, and its renderer has a table of nodes; between the two
  there is nothing but a queue of calls.  Whatever is asked of the device, and whenever the
  renderer carries calls out or renders, the table is the one that belongs to the
  notes as soon as the queue has been carried out.
-/
import Chiptune.Proofs.TableOutline
import Chiptune.Sound.Device
import Mathlib.Data.List.Nodup

set_option autoImplicit false

namespace Chiptune

/-- Carries out the call that has waited longest. -/
def Renderer.carryFirst (renderer : Renderer) : Renderer :=
  match renderer.queue with
  | [] => renderer
  | call :: queue =>
    { renderer with nodes := renderer.nodes.apply renderer.rate.toFloat32 call, queue }

namespace Device

/-! ## What happens to a device -/

/-- What is asked of a device.  The nodes may be any, known to it or not. -/
inductive Demand where
  | newOscillator (waveform : Waveform)
  | newEffect (effect : Effect)
  | wire (source target : NodeId)
  | signal (given : Signal)

/-- A number if a node has been created, or why the call was refused. -/
abbrev Answer := Except GraphFault (Option NodeId)

/-- Meets a demand. -/
def meet (demand : Demand) (device : Device) : Answer × Device :=
  match demand with
  | .newOscillator waveform =>
    let (outcome, device) := AudioGraph.newOscillator waveform device
    (outcome.map some, device)
  | .newEffect effect =>
    let (outcome, device) := AudioGraph.newEffect effect device
    (outcome.map some, device)
  | .wire source target =>
    let (outcome, device) := AudioGraph.wire source target device
    (outcome.map fun _ => none, device)
  | .signal given => (.ok none, AudioGraph.signal given device)

/-- Something is asked of a device, or its renderer goes on: by one call that waits, by one
frame, or by a block, before which all calls that wait are carried out. -/
inductive Event where
  | ask (demand : Demand)
  | carry
  | frame (size : Nat)
  | block (count : Nat)

/-- Whether something is asked of the device. -/
def Event.isDemand : Event → Bool
  | ask _ => true
  | _ => false

/-- Lets one thing happen. -/
def happen (event : Event) (device : Device) : Device :=
  match event with
  | .ask demand => (device.meet demand).2
  | .carry => { device with renderer := device.renderer.carryFirst }
  | .frame size =>
    let frame := List.replicate size 0
    { device with renderer := (Renderer.renderFrame (#[], device.renderer) frame).2 }
  | .block count => (device.pump count).2

/-- Lets one thing happen after the other. -/
def after (events : List Event) (device : Device) : Device :=
  events.foldl (fun device event => device.happen event) device

/-- What is told of each event, told of several in order. -/
def gather {α : Type} (tell : Event → Device → List α) : List Event → Device → List α
  | [], _ => []
  | event :: events, device => tell event device ++ gather tell events (device.happen event)

theorem after_append (first second : List Event) (device : Device) :
    device.after (first ++ second) = (device.after first).after second :=
  List.foldl_append

/-- A run may be told in two portions. -/
theorem gather_append {α : Type} (tell : Event → Device → List α) (first second : List Event)
    (device : Device) :
    device.gather tell (first ++ second) =
      device.gather tell first ++ (device.after first).gather tell second := by
  induction first generalizing device with
  | nil => rfl
  | cons event first ih => exact (congrArg (_ ++ ·) (ih _)).trans (List.append_assoc _ _ _).symm

/-- What a device answers. -/
def answered : Event → Device → List Answer
  | .ask demand, device => [(device.meet demand).1]
  | _, _ => []

/-- The calls that are carried out. -/
def carried : Event → Device → List Call
  | .ask _, _ => []
  | .carry, device => device.renderer.queue.head?.toList
  | .frame _, _ => []
  | .block _, device => if device.isOpen then device.renderer.queue else []

/-- The table that the renderer has when every call that waits has been carried out. -/
def settled (device : Device) : NodeTable := device.renderer.applyQueue.nodes

/-! ## Notes -/

/-- What a device makes of a demand: its answer, the call that it hands on, the number of
the next node and the nodes that are live. -/
structure Reaction where
  answer : Answer
  handed : List Call
  nextNode : NodeId
  live : List NodeId

/-- The reaction of a device that is open depends on its notes alone. -/
def Demand.reaction (demand : Demand) (nextNode : NodeId) (live : List NodeId) : Reaction :=
  match demand with
  | newOscillator waveform =>
    ⟨.ok (some nextNode), [.newOscillator nextNode waveform], nextNode + 1, live ++ [nextNode]⟩
  | newEffect effect =>
    ⟨.ok (some nextNode), [.newEffect nextNode effect], nextNode + 1, live ++ [nextNode]⟩
  | wire source target =>
    if source ∉ live then ⟨.error (.unknownNode source), [], nextNode, live⟩
    else if target ∉ live then ⟨.error (.unknownNode target), [], nextNode, live⟩
    else ⟨.ok none, [.wire source target], nextNode, live⟩
  | signal (.detach node) =>
    if node ∈ live then ⟨.ok none, [.signal (.detach node)], nextNode, live.erase node⟩
    else ⟨.ok none, [], nextNode, live⟩
  | signal given => ⟨.ok none, [.signal given], nextNode, live⟩

/-- Takes down a reaction. -/
def note (reaction : Reaction) (device : Device) : Device :=
  { device with
    nextNode := reaction.nextNode
    live := reaction.live
    renderer := { device.renderer with queue := device.renderer.queue ++ reaction.handed } }

theorem note_quiet (answer : Answer) (device : Device) :
    device.note ⟨answer, [], device.nextNode, device.live⟩ = device := by
  rw [note, List.append_nil]

/-- No call is lost on its way to the renderer of a device that is open. -/
theorem send_eq {device : Device} (hopen : device.isOpen = true) (call : Call) :
    device.send call = (.ok (), { device with renderer := device.renderer.send call }) := by
  rw [send, if_pos hopen]

theorem create_eq {device : Device} (hopen : device.isOpen = true) (call : NodeId → Call) :
    device.create call =
      (.ok device.nextNode,
        { device with
          nextNode := device.nextNode + 1
          live := device.live ++ [device.nextNode]
          renderer := device.renderer.send (call device.nextNode) }) := by
  simp only [create, send, hopen, if_true]

theorem meet_eq {device : Device} (hopen : device.isOpen = true) (demand : Demand) :
    device.meet demand =
      ((demand.reaction device.nextNode device.live).answer,
        device.note (demand.reaction device.nextNode device.live)) := by
  cases demand with
  | newOscillator waveform =>
    simp only [meet, AudioGraph.newOscillator, create_eq hopen]
    rfl
  | newEffect effect =>
    simp only [meet, AudioGraph.newEffect, create_eq hopen]
    rfl
  | wire source target =>
    simp only [meet, AudioGraph.wire, Device.wire, send_eq hopen, Demand.reaction,
      Bool.not_eq_true', List.contains_eq_mem, decide_eq_false_iff_not]
    split
    · rw [note_quiet]
      rfl
    · split
      · rw [note_quiet]
        rfl
      · rfl
  | signal given =>
    simp only [meet, AudioGraph.signal]
    cases given with
    | detach node =>
      simp only [Device.signal, Demand.reaction, List.contains_eq_mem, decide_eq_true_eq]
      split
      · have herased : { device with live := device.live.erase node }.isOpen = true := hopen
        rw [send_eq herased]
        rfl
      · rw [note_quiet]
    | _ =>
      simp only [Device.signal, send_eq hopen]
      rfl

/-! ## The table that belongs to the notes -/

/-- Calls that are handed on are carried out behind all others. -/
theorem settled_note (reaction : Reaction) (device : Device) :
    (device.note reaction).settled =
      device.settled.applyAll device.renderer.rate.toFloat32 reaction.handed :=
  NodeTable.applyAll_append _ _ _ _

theorem settled_note_single (answer : Answer) (call : Call) (nextNode : NodeId)
    (live : List NodeId) (device : Device) :
    (device.note ⟨answer, [call], nextNode, live⟩).settled =
      device.settled.apply device.renderer.rate.toFloat32 call :=
  settled_note _ device

/-- The table has the nodes that are live, in the order of their creation. -/
structure Tracked (device : Device) : Prop where
  positive : destination < device.nextNode
  nodup : device.live.Nodup
  below : ∀ node ∈ device.live, node < device.nextNode
  ids : device.settled.ids = device.live.filter (· != destination)

namespace Tracked

variable {device : Device}

theorem fresh (h : device.Tracked) : device.nextNode ∉ device.settled.ids := by
  rw [h.ids]
  intro hmem
  exact Nat.lt_irrefl _ (h.below _ (List.mem_filter.1 hmem).1)

/-- A node that is created comes last, in the table as in the notes. -/
theorem create (h : device.Tracked) (answer : Answer) {call : Call} {node : SoundNode}
    (hcall : ∀ table : NodeTable, table.apply device.renderer.rate.toFloat32 call =
      table.insert device.nextNode node) :
    (device.note
      ⟨answer, [call], device.nextNode + 1, device.live ++ [device.nextNode]⟩).Tracked where
  positive := Nat.succ_pos _
  nodup := by
    refine h.nodup.append (List.nodup_singleton _) (List.disjoint_singleton.2 fun hmem => ?_)
    exact Nat.lt_irrefl _ (h.below _ hmem)
  below := by
    intro other hmem
    rcases List.mem_append.1 hmem with hmem | hmem
    · exact Nat.lt_succ_of_lt (h.below other hmem)
    · exact List.mem_singleton.1 hmem ▸ Nat.lt_succ_self _
  ids := by
    have hne : (device.nextNode != destination) = true :=
      bne_iff_ne.2 (Nat.ne_of_gt h.positive)
    rw [settled_note_single, hcall, NodeTable.ids_insert_of_not_mem h.fresh, h.ids]
    simp [note, List.filter_append, hne]

/-- A node that is detached is gone, from the table as from the notes. -/
theorem detach (h : device.Tracked) (answer : Answer) (node : NodeId) :
    (device.note ⟨answer, [.signal (.detach node)], device.nextNode,
      device.live.erase node⟩).Tracked where
  positive := h.positive
  nodup := h.nodup.erase node
  below := fun other hmem => h.below other (List.mem_of_mem_erase hmem)
  ids := by
    rw [settled_note_single, NodeTable.apply, NodeTable.ids_erase, h.ids]
    simp only [note]
    rw [h.nodup.erase_eq_filter, List.filter_filter, List.filter_filter]
    exact List.filter_congr fun other _ => Bool.and_comm _ _

/-- Other calls leave every node where it is. -/
theorem other (h : device.Tracked) (answer : Answer) {call : Call}
    (hcall : ∀ (rate : Float32) (table : NodeTable), (table.apply rate call).ids = table.ids) :
    (device.note ⟨answer, [call], device.nextNode, device.live⟩).Tracked where
  positive := h.positive
  nodup := h.nodup
  below := h.below
  ids := by
    rw [settled_note_single, hcall]
    exact h.ids

/-- Whatever is asked of the device, the table belongs to the notes. -/
theorem note (h : device.Tracked) (demand : Demand) :
    (device.note (demand.reaction device.nextNode device.live)).Tracked := by
  cases demand with
  | newOscillator waveform => exact h.create _ fun _ => rfl
  | newEffect effect => exact h.create _ fun _ => rfl
  | wire source target =>
    simp only [Demand.reaction]
    split
    · rwa [note_quiet]
    · split
      · rwa [note_quiet]
      · exact h.other _ fun rate table => table.ids_wire rate source target
  | signal given =>
    cases given with
    | detach node =>
      simp only [Demand.reaction]
      split
      · exact h.detach _ node
      · rwa [note_quiet]
    | _ => exact h.other _ fun rate table => table.ids_signal rate (fun _ heq => nomatch heq)

theorem meet (h : device.Tracked) (hopen : device.isOpen = true) (demand : Demand) :
    (device.meet demand).2.Tracked := by
  rw [meet_eq hopen]
  exact h.note demand

/-- A wire that leaves a node which is not the destination is in the table. -/
theorem lookup_wire (h : device.Tracked) (hopen : device.isOpen = true) {source target : NodeId}
    (hwire : (device.wire source target).1 = .ok ()) (hsource : source ≠ destination) :
    ∃ node, (device.wire source target).2.settled.lookup source = some ⟨node, some target⟩ := by
  obtain ⟨hanswer, hnext⟩ := Prod.mk.inj (meet_eq hopen (.wire source target))
  change (device.wire source target).1.map _ = _ at hanswer
  change (device.wire source target).2 = _ at hnext
  rw [hwire] at hanswer
  rw [hnext]
  simp only [Demand.reaction] at hanswer ⊢
  split at hanswer
  · cases hanswer
  · split at hanswer
    · cases hanswer
    · rename_i hlive htarget
      rw [if_neg hlive, if_neg htarget, settled_note_single]
      have hmem : source ∈ device.settled.ids := by
        rw [h.ids]
        exact List.mem_filter.2 ⟨not_not.1 hlive, bne_iff_ne.2 hsource⟩
      obtain ⟨wired, hwired⟩ := Option.isSome_iff_exists.1 (NodeTable.mem_ids_iff.1 hmem)
      refine ⟨wired.node, ?_⟩
      rw [NodeTable.apply, NodeTable.lookup_modify, if_pos rfl, hwired]
      rfl

end Tracked

/-! ## Rendering in between -/

/-- A renderer has gone on, and nothing has been asked of its device: the notes are as they were,
and these calls have been carried out, which had waited longest. -/
structure Quiet (carried : List Call) (before after : Device) : Prop where
  isOpen : after.isOpen = before.isOpen
  nextNode : after.nextNode = before.nextNode
  live : after.live = before.live
  rate : after.renderer.rate = before.renderer.rate
  queue : carried ++ after.renderer.queue = before.renderer.queue
  outline : after.settled.outline = before.settled.outline

/-- What is rendered does not show in the outline. -/
theorem quiet_keeps {device : Device} {renderer : Renderer}
    (h : Renderer.Keeps device.renderer renderer) : Quiet [] device { device with renderer } where
  isOpen := rfl
  nextNode := rfl
  live := rfl
  rate := h.rate
  queue := h.queue
  outline := by
    change (NodeTable.applyAll _ renderer.queue renderer.nodes).outline = _
    rw [h.queue, h.rate]
    exact NodeTable.outline_applyAll_congr _ _ h.outline

/-- Whatever happens to a device, it is quiet unless something is asked of it. -/
theorem quiet_happen {event : Event} (hquiet : event.isDemand = false) {device : Device}
    (hopen : device.isOpen = true) :
    Quiet (device.carried event) device (device.happen event) := by
  cases event with
  | ask demand => cases hquiet
  | carry =>
    obtain ⟨⟨nodes, queue, frames, rate⟩, isOpen, nextNode, live, channels, convert⟩ := device
    cases queue <;> exact ⟨rfl, rfl, rfl, rfl, rfl, rfl⟩
  | frame size => exact quiet_keeps (Renderer.keeps_renderFrame (#[], device.renderer) _)
  | block count =>
    have hrendered : Quiet [] { device with renderer := device.renderer.applyQueue }
        { device with renderer := (device.renderer.render count device.channels).2 } :=
      quiet_keeps (Renderer.keeps_renderOver _ device.channels device.renderer)
    rw [happen, pump, if_pos hopen, carried, if_pos hopen]
    exact { hrendered with
      queue := (congrArg (_ ++ ·) hrendered.queue).trans (List.append_nil _) }

/-- A device on which rendering goes on, and one on which the same has been asked and nothing
has been rendered. -/
structure InStep (carried : List Call) (batch going : Device) : Prop where
  isOpen : going.isOpen = true
  batchOpen : batch.isOpen = true
  /-- Nothing has been carried out on the other device. -/
  untouched : batch.renderer.nodes = []
  rate : going.renderer.rate = batch.renderer.rate
  nextNode : going.nextNode = batch.nextNode
  live : going.live = batch.live
  /-- Each call is carried out once and in order, or it still waits. -/
  calls : carried ++ going.renderer.queue = batch.renderer.queue
  outline : going.settled.outline = batch.settled.outline

namespace InStep

variable {calls : List Call} {batch going : Device}

/-- Both give the same answer to a demand, and note the same. -/
theorem ask (h : InStep calls batch going) (demand : Demand) :
    (going.meet demand).1 = (batch.meet demand).1 ∧
      InStep calls (batch.meet demand).2 (going.meet demand).2 := by
  rw [meet_eq h.isOpen, meet_eq h.batchOpen, h.nextNode, h.live]
  refine ⟨rfl, { h with nextNode := rfl, live := rfl, calls := ?_, outline := ?_ }⟩
  · change calls ++ (going.renderer.queue ++ _) = batch.renderer.queue ++ _
    rw [← List.append_assoc, h.calls]
  · rw [settled_note, settled_note, h.rate]
    exact NodeTable.outline_applyAll_congr _ _ h.outline

/-- Nothing is asked, and the renderer goes on. -/
theorem quiet {carried : List Call} {next : Device} (h : InStep calls batch going)
    (hquiet : Quiet carried going next) : InStep (calls ++ carried) batch next where
  isOpen := hquiet.isOpen.trans h.isOpen
  batchOpen := h.batchOpen
  untouched := h.untouched
  rate := hquiet.rate.trans h.rate
  nextNode := hquiet.nextNode.trans h.nextNode
  live := hquiet.live.trans h.live
  calls := (List.append_assoc _ _ _).trans (hquiet.queue.symm ▸ h.calls)
  outline := hquiet.outline.trans h.outline

/-- What is asked is asked of both; everything else happens to one of them. -/
theorem happen (h : InStep calls batch going) (event : Event) :
    going.answered event = (batch.gather answered ([event].filter Event.isDemand)) ∧
      InStep (calls ++ going.carried event) (batch.after ([event].filter Event.isDemand))
        (going.happen event) := by
  cases event with
  | ask demand =>
    obtain ⟨hanswer, hnext⟩ := h.ask demand
    exact ⟨congrArg (fun answer => [answer]) hanswer, (List.append_nil calls).symm ▸ hnext⟩
  | _ => exact ⟨rfl, h.quiet (quiet_happen rfl h.isOpen)⟩

/-- A table of the same outline has the same nodes. -/
theorem tracked (h : InStep calls batch going) (htracked : batch.Tracked) : going.Tracked where
  positive := h.nextNode ▸ htracked.positive
  nodup := h.live ▸ htracked.nodup
  below := h.nextNode ▸ h.live ▸ htracked.below
  ids := by
    rw [NodeTable.ids_eq_outline, h.outline, ← NodeTable.ids_eq_outline, h.live]
    exact htracked.ids

/-- However the events follow one another, the two stay in step. -/
theorem after (events : List Event) (h : InStep calls batch going) (htracked : batch.Tracked) :
    going.gather answered events = batch.gather answered (events.filter Event.isDemand) ∧
      InStep (calls ++ going.gather carried events) (batch.after (events.filter Event.isDemand))
        (going.after events) ∧
      (batch.after (events.filter Event.isDemand)).Tracked := by
  induction events generalizing calls batch going with
  | nil => exact ⟨rfl, (List.append_nil calls).symm ▸ h, htracked⟩
  | cons event events ih =>
    obtain ⟨hanswer, hstep⟩ := h.happen event
    have hnext : (batch.after ([event].filter Event.isDemand)).Tracked := by
      cases event with
      | ask demand => exact htracked.meet h.batchOpen demand
      | _ => exact htracked
    have hfilter : (event :: events).filter Event.isDemand =
        [event].filter Event.isDemand ++ events.filter Event.isDemand :=
      List.filter_append [event] events
    obtain ⟨hanswers, hsteps, hlast⟩ := ih hstep hnext
    rw [hfilter, gather_append, after_append, ← hanswer, ← hanswers]
    rw [List.append_assoc] at hsteps
    exact ⟨rfl, hsteps, hlast⟩

end InStep

/-- A device that has been opened has no nodes, and nothing waits. -/
theorem openOutput_ok {output : Output} {device : Device} (h : openOutput output = .ok device) :
    ∃ rate channels convert,
      device = ⟨.silent rate 0, true, 1, [destination], channels, convert⟩ := by
  unfold openOutput at h
  split at h
  · cases h
  · cases h
  · split at h
    · cases h
    · split at h
      · cases h
      · cases h
        exact ⟨_, _, _, rfl⟩

/-- **The table belongs to the notes as soon as the queue has been carried out.**  Open a
device, ask anything of it, and let its renderer carry calls out and render at any time in
between.  With the calls that still wait carried out, the renderer has the nodes that are
live, without the destination.  Each of them is what it is, and is wired as it is, on a device
of which the same is asked and which renders nothing until all calls have been carried out at
once; that device gives the same answers.  No call is lost, and none is carried out
twice; and a wire that is accepted leads its source on. -/
theorem settled_after {output : Output} {device : Device} (hopen : openOutput output = .ok device)
    (events : List Event) :
    let going := device.after events
    let batch := device.after (events.filter Event.isDemand)
    going.settled.ids = going.live.filter (· != destination) ∧ going.live.Nodup ∧
      device.gather answered events = device.gather answered (events.filter Event.isDemand) ∧
      InStep (device.gather carried events) batch going ∧
      ∀ source target, (going.wire source target).1 = .ok () → source ≠ destination →
        ∃ node, (going.wire source target).2.settled.lookup source = some ⟨node, some target⟩ := by
  obtain ⟨rate, channels, convert, rfl⟩ := openOutput_ok hopen
  have hstart : InStep [] (⟨.silent rate 0, true, 1, [destination], channels, convert⟩ : Device)
      ⟨.silent rate 0, true, 1, [destination], channels, convert⟩ :=
    ⟨rfl, rfl, rfl, rfl, rfl, rfl, rfl, rfl⟩
  have htracked : Tracked ⟨.silent rate 0, true, 1, [destination], channels, convert⟩ :=
    ⟨Nat.one_pos, List.nodup_singleton _, by simp [destination], by rfl⟩
  obtain ⟨hanswers, hstep, hbatch⟩ := hstart.after events htracked
  have hgoing := hstep.tracked hbatch
  exact ⟨hgoing.ids, hgoing.nodup, hanswers, hstep, fun source target hwire hsource =>
    hgoing.lookup_wire hstep.isOpen hwire hsource⟩

/-- An output with two channels. -/
def stereoOutput : Output := ⟨.f32, 2, 48000, none⟩

/-- The device behind it. -/
def stereoDevice : Device := ⟨.silent (Float.ofNat 48000) 0, true, 1, [destination], 2, .real⟩

/-- A voice is built while blocks are rendered.  Its oscillator is detached twice, and one
more wire is asked for behind that. -/
def busyEvents : List Event :=
  [.ask (.newOscillator .sine), .block 4, .ask (.newEffect ⟨.gain, 0.5⟩), .ask (.wire 1 2),
    .carry, .frame 2, .ask (.wire 2 0), .ask (.signal (.start 1 0)), .block 2,
    .ask (.signal (.detach 1)), .ask (.signal (.detach 1)), .ask (.wire 1 2)]

/-- The effect is left, and a wire may lead on from it. -/
theorem settled_after_busyEvents :
    openOutput stereoOutput = .ok stereoDevice ∧
      (stereoDevice.after busyEvents).settled.ids =
        (stereoDevice.after busyEvents).live.filter (· != destination) ∧
      (stereoDevice.after busyEvents).live = [0, 2] ∧
      stereoDevice.gather answered busyEvents =
        stereoDevice.gather answered (busyEvents.filter Event.isDemand) ∧
      InStep (stereoDevice.gather carried busyEvents)
        (stereoDevice.after (busyEvents.filter Event.isDemand))
        (stereoDevice.after busyEvents) ∧
      ((stereoDevice.after busyEvents).wire 2 0).1 = .ok () ∧
      ∃ node, ((stereoDevice.after busyEvents).wire 2 0).2.settled.lookup 2 =
        some ⟨node, some 0⟩ := by
  have hopen : openOutput stereoOutput = .ok stereoDevice := rfl
  obtain ⟨hids, -, hanswers, hstep, hwired⟩ := settled_after hopen busyEvents
  have hwire : ((stereoDevice.after busyEvents).wire 2 0).1 = .ok () := by decide +kernel
  exact ⟨hopen, hids, by decide +kernel, hanswers, hstep, hwire, hwired 2 0 hwire (by decide)⟩

end Device

end Chiptune
