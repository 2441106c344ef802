/-
  A device that follows a recorder.

  A device forgets the nodes that are detached, and a recorder does not, so they answer
  differently as soon as something is asked of a node that is gone.  An engine never asks for
  that.  It gets the same answers from both, whatever is rendered in between; and the calls
  that the renderer is handed are those that the recorder takes down.
-/
import Chiptune.Proofs.DeviceQueue
import Chiptune.Proofs.GraphFollows
import Chiptune.Proofs.LawfulRecord
import Chiptune.Proofs.Turns

set_option autoImplicit false

namespace Chiptune

open AudioGraph Recorder

namespace Device

/-! ## One call -/

/-- A device and a recorder of which the same has been asked.  Of the calls on the record, some
have been carried out, and the others wait. -/
structure Mirrors (carried : List Call) (device : Device) (recorder : Recorder) : Prop where
  isOpen : device.isOpen = true
  willing : recorder.Willing
  now_eq : AudioGraph.now device = recorder.now
  nextNode : device.nextNode = recorder.nextNode
  calls : carried ++ device.renderer.queue = recorder.calls
  nodup : device.live.Nodup
  output : destination ∈ device.live
  /-- Besides the destination, those nodes are live that the record tells to be alive. -/
  live : ∀ node, node ≠ destination → (node ∈ device.live ↔ recorder.alive node = true)

namespace Mirrors

variable {calls : List Call} {device : Device} {recorder next : Recorder}

/-- A call that is handed on and taken down. -/
theorem send {call : Call} {number : NodeId} {live : List NodeId}
    (h : Mirrors calls device recorder)
    (hnext : next = { recorder with calls := recorder.calls ++ [call], nextNode := number })
    (hpositive : destination < number) (hnodup : live.Nodup) (houtput : destination ∈ live)
    (hlive : ∀ node, node ≠ destination → (node ∈ live ↔ next.alive node = true)) :
    Mirrors calls
      { device with nextNode := number, live, renderer := device.renderer.send call } next where
  isOpen := h.isOpen
  willing := hnext ▸ ⟨h.willing.effects, h.willing.oscillators, h.willing.allowance, hpositive⟩
  now_eq := hnext ▸ h.now_eq
  nextNode := hnext ▸ rfl
  calls := by
    rw [hnext, ← h.calls]
    exact (List.append_assoc _ _ _).symm
  nodup := hnodup
  output := houtput
  live := hlive

/-- A node that is created gets the same number from both. -/
theorem create {call : NodeId → Call} {node : NodeId} (h : Mirrors calls device recorder)
    (hnodes : ∀ new, (call new).nodes = [new])
    (hcreation : ∀ new, (call new).role.isCreation = true)
    (hcreate : recorder.create call = (.ok node, next)) (hlawful : next.Lawful) :
    ∃ left, device.create call = (.ok node, left) ∧ Mirrors calls left next := by
  obtain ⟨hnode, hnext⟩ := Prod.mk.inj hcreate
  obtain rfl := Except.ok.inj hnode
  have hcalls : next.calls = recorder.calls ++ [call recorder.nextNode] := hnext ▸ rfl
  have hne : recorder.nextNode ≠ destination := Nat.ne_of_gt h.willing.positive
  have hmem : ∀ other, other ∈ (call recorder.nextNode).nodes ↔ other = recorder.nextNode :=
    fun other => by rw [hnodes, List.mem_singleton]
  obtain ⟨hbefore, hafter⟩ := hlawful.alive_of_mem hcalls hne ((hmem _).2 rfl)
  have hfresh : recorder.nextNode ∉ device.live := by
    rw [h.live _ hne, hbefore, hcreation]
    exact Bool.false_ne_true
  have hmade : next.alive recorder.nextNode = true := by
    rw [hafter]
    refine bne_iff_ne.2 fun hrole => ?_
    have hnone := hcreation recorder.nextNode
    rw [hrole] at hnone
    cases hnone
  rw [create_eq h.isOpen, h.nextNode]
  refine ⟨_, rfl, h.send hnext.symm (Nat.succ_pos _) ?_ (List.mem_append_left _ h.output) ?_⟩
  · exact h.nodup.append (List.nodup_singleton _) (List.disjoint_singleton.2 hfresh)
  · intro other hother
    rw [List.mem_append, List.mem_singleton]
    by_cases heq : other = recorder.nextNode
    · rw [heq]
      exact iff_of_true (Or.inr rfl) hmade
    · rw [alive_of_not_mem hcalls (mt (hmem other).1 heq), h.live other hother]
      exact or_iff_left heq

/-- A call that neither creates nor detaches anything leaves the nodes as they are, and those
that it mentions are live. -/
theorem other {call : Call} (h : Mirrors calls device recorder)
    (hcreation : call.role.isCreation = false) (hdetached : call.role ≠ .detached)
    (hlawful : (recorder.note call).Lawful) :
    (∀ node ∈ call.nodes, node ∈ device.live) ∧
      Mirrors calls { device with renderer := device.renderer.send call }
        (recorder.note call) := by
  have hcalls : (recorder.note call).calls = recorder.calls ++ [call] := rfl
  have hmentioned : ∀ node ∈ call.nodes, node ≠ destination →
      recorder.alive node = true ∧ (recorder.note call).alive node = true := by
    intro node hnode hne
    obtain ⟨hbefore, hafter⟩ := hlawful.alive_of_mem hcalls hne hnode
    rw [hbefore, hafter, hcreation]
    exact ⟨rfl, bne_iff_ne.2 hdetached⟩
  constructor
  · intro node hnode
    by_cases hne : node = destination
    · exact hne ▸ h.output
    · exact (h.live node hne).2 (hmentioned node hnode hne).1
  · refine h.send ?_ (h.nextNode ▸ h.willing.positive) h.nodup h.output fun node hne => ?_
    · rw [h.nextNode]
      rfl
    · rw [h.live node hne]
      by_cases hnode : node ∈ call.nodes
      · obtain ⟨hbefore, hafter⟩ := hmentioned node hnode hne
        exact iff_of_true hbefore hafter
      · rw [alive_of_not_mem hcalls hnode]

/-- A wire that the recorder lays is laid by the device, since both its ends are live. -/
theorem wire {source target : NodeId} (h : Mirrors calls device recorder)
    (hwire : AudioGraph.wire source target recorder = (.ok (), next)) (hlawful : next.Lawful) :
    ∃ left, device.wire source target = (.ok (), left) ∧ Mirrors calls left next := by
  rcases wire_cases source target recorder with ⟨fault, heq⟩ | heq
  · rw [hwire] at heq
    cases heq
  · rw [hwire] at heq
    obtain rfl : next = recorder.note (.wire source target) := (Prod.mk.inj heq).2
    obtain ⟨hlive, hmirrors⟩ := h.other rfl (by simp [Call.role]) hlawful
    have hsource := hlive source List.mem_cons_self
    have htarget := hlive target (List.mem_cons_of_mem _ (List.mem_singleton_self _))
    refine ⟨_, ?_, hmirrors⟩
    simp only [Device.wire, List.contains_eq_mem, hsource, htarget, decide_true, Bool.not_true,
      Bool.false_eq_true, if_false]
    exact send_eq h.isOpen _

/-- A node is detached while it is live, so the signal is not held back. -/
theorem detach {node : NodeId} (h : Mirrors calls device recorder)
    (hlawful : (recorder.note (.signal (.detach node))).Lawful) :
    Mirrors calls (device.signal (.detach node)) (recorder.note (.signal (.detach node))) := by
  have hne : node ≠ destination :=
    hlawful.spares (.detach node) (List.mem_append_right _ (List.mem_singleton_self _))
  have hcalls : (recorder.note (.signal (.detach node))).calls =
      recorder.calls ++ [.signal (.detach node)] := rfl
  obtain ⟨hbefore, hafter⟩ := hlawful.alive_of_mem hcalls hne (List.mem_singleton_self node)
  have hmem : node ∈ device.live := (h.live node hne).2 hbefore
  have hsignal : device.signal (.detach node) =
      { device with
        live := device.live.erase node
        renderer := device.renderer.send (.signal (.detach node)) } := by
    have herased : { device with live := device.live.erase node }.isOpen = true := h.isOpen
    simp only [Device.signal, List.contains_eq_mem, hmem, decide_true, if_true]
    rw [send_eq herased]
  rw [hsignal]
  refine h.send ?_ (h.nextNode ▸ h.willing.positive) (h.nodup.erase node)
    ((List.mem_erase_of_ne hne.symm).2 h.output) fun other hother => ?_
  · rw [h.nextNode]
    rfl
  · rw [h.nodup.mem_erase_iff, h.live other hother]
    by_cases heq : other = node
    · rw [heq]
      exact iff_of_false (fun hboth => hboth.1 rfl) (hafter ▸ Bool.false_ne_true)
    · have hnot : other ∉ (Call.signal (.detach node)).nodes := fun hin =>
        heq (List.mem_singleton.1 hin)
      rw [alive_of_not_mem hcalls hnot]
      exact and_iff_right heq

/-- No signal is held back. -/
theorem signal {given : Signal} (h : Mirrors calls device recorder)
    (hlawful : (recorder.note (.signal given)).Lawful) :
    Mirrors calls (device.signal given) (recorder.note (.signal given)) := by
  cases given with
  | detach node => exact h.detach hlawful
  | _ =>
    obtain ⟨-, hmirrors⟩ := h.other rfl (by simp [Call.role, Signal.role]) hlawful
    simp only [Device.signal, send_eq h.isOpen]
    exact hmirrors

/-- A device that mirrors a recorder that refuses nothing follows it. -/
theorem follows (calls : List Call) : AudioGraph.Follows Lawful (Mirrors calls) where
  unlawful := kept_unlawful
  now_eq := fun h => h.now_eq
  supports_eq := fun h => h.willing.supports_eq.symm
  builds := by
    intro device recorder h instrument
    obtain ⟨chain, built, -, hbuild⟩ := h.willing.build instrument
    exact ⟨chain, built, hbuild⟩
  newOscillator := by
    intro device recorder next waveform node h hcreate hlawful
    rw [h.willing.newOscillator_eq] at hcreate
    exact h.create (fun _ => rfl) (fun _ => rfl) hcreate hlawful
  newEffect := by
    intro device recorder next effect node h hcreate hlawful
    rw [h.willing.newEffect_eq] at hcreate
    exact h.create (fun _ => rfl) (fun _ => rfl) hcreate hlawful
  wire := fun h hwire hlawful => h.wire hwire hlawful
  signal := fun h hlawful => h.signal hlawful

end Mirrors

/-! ## Rendering in between -/

/-- A device goes on mirroring a recorder whose clock is set to its time. -/
theorem Mirrors.render {calls : List Call} {device : Device} {recorder : Recorder} {event : Event}
    (h : Mirrors calls device recorder) (hquiet : event.isDemand = false) :
    Mirrors (calls ++ device.carried event) (device.happen event)
      (recorder.atTime (AudioGraph.now (device.happen event))) := by
  have hdevice := quiet_happen hquiet h.isOpen
  exact
    { isOpen := hdevice.isOpen.trans h.isOpen
      willing := h.willing.atTime _
      now_eq := rfl, nextNode := hdevice.nextNode.trans h.nextNode
      calls := (List.append_assoc _ _ _).trans (hdevice.queue.symm ▸ h.calls)
      nodup := hdevice.live ▸ h.nodup, output := hdevice.live ▸ h.output
      live := hdevice.live ▸ h.live }

/-- Nothing has been asked of a device that has been opened. -/
theorem mirrors_openOutput {output : Output} {device : Device}
    (hopen : openOutput output = .ok device) :
    Mirrors [] device (Recorder.fresh.atTime (AudioGraph.now device)) := by
  obtain ⟨rate, channels, convert, rfl⟩ := openOutput_ok hopen
  refine
    { isOpen := rfl, willing := ⟨rfl, rfl, rfl, Nat.one_pos⟩, now_eq := rfl, nextNode := rfl
      calls := rfl, nodup := List.nodup_singleton _, output := List.mem_singleton_self _
      live := fun node hnode => iff_of_false ?_ Bool.false_ne_true }
  exact fun hmem => hnode (List.mem_singleton.1 hmem)

end Device

/-! ## Runs -/

namespace Engine

/-- What happens to an engine over a device: it is asked for something, or the renderer goes
on. -/
inductive Beat where
  | ask (request : Request)
  | render (event : Device.Event) (h : event.isDemand = false)

/-- A beat as a turn. -/
def Beat.turn : Beat → Turn Device
  | ask request => .ask request
  | render event _ => .host (Device.happen event)

/-- The calls that are carried out in a beat. -/
def Beat.carried : Beat → Engine Device → List Call
  | ask _, _ => []
  | render event _, engine => engine.graph.carried event

/-- The calls that are carried out in a run, in order. -/
def carriedIn : List Beat → Engine Device → List Call
  | [], _ => []
  | beat :: beats, engine => beat.carried engine ++ carriedIn beats (engine.take beat.turn).2

/-- What an engine answers. -/
def answering (turn : Turn Device) (engine : Engine Device) : List Answer :=
  [(engine.take turn).1]

/-- What happens meanwhile to an engine over a recorder: the same is asked of it, and its clock
is set to the time of the device. -/
def shadowed : Turn Device → Engine Device → List Event
  | .ask request, _ => [.ask request]
  | .host change, engine => [.host (.setClock (now (change engine.graph)))]

section

variable {calls : List Call} {engine : Engine Device} {other : Engine Recorder}

/-- Whatever happens, it happens to both. -/
theorem follows_take (beat : Beat) (h : engine.Follows (Device.Mirrors calls) other)
    (hproper : other.toStage.Proper) :
    ∃ event, shadowed beat.turn engine = [event] ∧
      (engine.take beat.turn).1 = (other.happen event).1 ∧
      (engine.take beat.turn).2.Follows (Device.Mirrors (calls ++ beat.carried engine))
        (other.happen event).2 ∧
      (other.happen event).2.toStage.Proper ∧
      ∀ fault, (other.happen event).1 ≠ .played (.error (.graph fault)) := by
  cases beat with
  | ask request =>
    have hnext := kept_serve Stage.kept_proper request hproper
    obtain ⟨hanswer, hfollows, hfault⟩ :=
      h.serve (Device.Mirrors.follows calls) request hnext.lawful
    refine ⟨.ask request, rfl, hanswer, ?_, hnext, hfault⟩
    rw [Beat.carried, List.append_nil]
    exact hfollows
  | render event hquiet =>
    refine ⟨.host (.setClock (now (engine.graph.happen event))), rfl, rfl, ?_,
      hproper.atTime _, fun _ heq => nomatch heq⟩
    exact { h with graph := h.graph.render hquiet }

/-- However the beats follow one another, both go the same way. -/
theorem follows_afterTurns (beats : List Beat) (h : engine.Follows (Device.Mirrors calls) other)
    (hproper : other.toStage.Proper) :
    let turns := beats.map Beat.turn
    let events := engine.gather shadowed turns
    engine.gather answering turns = other.answers events ∧
      (engine.afterTurns turns).Follows (Device.Mirrors (calls ++ engine.carriedIn beats))
        (other.after events) ∧
      ∀ fault, .played (.error (.graph fault)) ∉ other.answers events := by
  induction beats generalizing calls engine other with
  | nil =>
    refine ⟨rfl, ?_, fun _ => List.not_mem_nil⟩
    rw [carriedIn, List.append_nil]
    exact h
  | cons beat beats ih =>
    obtain ⟨event, hevent, hanswer, hnext, hproper, hfault⟩ := follows_take beat h hproper
    obtain ⟨hanswers, hlast, hfaults⟩ := ih hnext hproper
    intro turns events
    have hevents : events = event :: (engine.take beat.turn).2.gather shadowed
        (beats.map Beat.turn) := congrArg (· ++ _) hevent
    rw [hevents]
    refine ⟨List.cons_eq_cons.2 ⟨hanswer, hanswers⟩, ?_, fun fault hmem => ?_⟩
    · rw [carriedIn, ← List.append_assoc]
      exact hlast
    · rcases List.mem_cons.1 hmem with heq | hmem
      · exact hfault fault heq.symm
      · exact hfaults fault hmem

end

/-- **An engine goes the same way on a device as on a recorder.**  Open a device, and make any
requests of an engine over it while its renderer carries calls out and renders at any time in
between.  An engine over a recorder that refuses nothing, whose clock is set to that of the
device, gives the same answers and plays the same voices in the same session; the next node has
the same number; and the calls on the record are those that have been carried out, followed by
those that wait.  So no call is held back and none is refused. -/
theorem follows_recorder {output : Output} {device : Device}
    (hopen : Device.openOutput output = .ok device) (book : Songbook) (beats : List Beat) :
    let turns := beats.map Beat.turn
    let heard := ofBook book device
    let recorded := ofBook book (Recorder.fresh.atTime (now device))
    let events := heard.gather shadowed turns
    heard.gather answering turns = recorded.answers events ∧
      (heard.afterTurns turns).Follows (Device.Mirrors (heard.carriedIn beats))
        (recorded.after events) ∧
      ∀ fault, .played (.error (.graph fault)) ∉ recorded.answers events := by
  intro turns heard recorded events
  have hstart : heard.Follows (Device.Mirrors []) recorded :=
    { scheduler := rfl, book := rfl, session := rfl, listener := rfl
      graph := Device.mirrors_openOutput hopen }
  exact follows_afterTurns beats hstart (Stage.proper_fresh.atTime _)

/-- An output with one channel that renders two frames in a second. -/
def slowOutput : Output := ⟨.f32, 1, 2, none⟩

/-- The device behind it. -/
def slowDevice : Device := ⟨.silent (Float.ofNat 2) 0, true, 1, [destination], 1, .real⟩

/-- A track plays to its end, and it is stopped when it plays once more. -/
def slowBeats : List Beat :=
  [.ask (.play "duet"), .render .carry rfl, .ask .tick, .render (.block 2) rfl, .ask .tick,
    .ask (.play "duet"), .ask (.play "solo"), .render (.frame 1) rfl, .ask .stop]

/-- Every voice is released on the device as it is on the record, though some calls wait. -/
theorem follows_recorder_slowBeats :
    Device.openOutput slowOutput = .ok slowDevice ∧
      (let turns := slowBeats.map Beat.turn
      let heard := ofBook duetBook slowDevice
      let recorded := ofBook duetBook (Recorder.fresh.atTime (now slowDevice))
      let events := heard.gather shadowed turns
      heard.gather answering turns = recorded.answers events ∧
        (heard.afterTurns turns).Follows (Device.Mirrors (heard.carriedIn slowBeats))
          (recorded.after events) ∧
        (∀ fault, .played (.error (.graph fault)) ∉ recorded.answers events) ∧
        (heard.afterTurns turns).graph.live = [destination] ∧
        (heard.carriedIn slowBeats).length = 11 ∧
        (heard.afterTurns turns).graph.renderer.queue.length = 17) := by
  have hopen : Device.openOutput slowOutput = .ok slowDevice := rfl
  obtain ⟨hanswers, hfollows, hfault⟩ := follows_recorder hopen duetBook slowBeats
  exact ⟨hopen, hanswers, hfollows, hfault, by decide +kernel, by decide +kernel,
    by decide +kernel⟩

end Engine

end Chiptune
