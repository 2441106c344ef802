/-
  Every node is accounted for.

  The nodes that a recorder has created belong to a voice that plays, or to a chain that
  is being built, or they are gone.  Each thing that is done to the graph hands some
  nodes over: a chain takes in the nodes that are created, its voice takes it over when it
  starts, and a voice that is released leaves its nodes behind for good.
-/
import Chiptune.Proofs.Life
import Chiptune.Proofs.Recording
import Chiptune.Proofs.VoiceNodes
import Mathlib.Data.List.Nodup

set_option autoImplicit false

namespace Chiptune

/-! ## Histories of signals -/

/-- A signal belongs to the history of its node. -/
theorem history_signal_cons (node : NodeId) (given : Signal) (signals : List Signal) :
    history node ((given :: signals).map .signal) =
      (if given.node = node then [given.role] else []) ++ history node (signals.map .signal) := by
  rw [List.map_cons, history, List.filterMap_cons, Call.role?]
  by_cases heq : given.node = node
  · rw [if_pos heq, if_pos heq]
    rfl
  · rw [if_neg heq, if_neg heq]
    rfl

/-- Detaching nodes ends the life of each of them. -/
theorem history_detach {nodes : List NodeId} (hnodup : nodes.Nodup) (node : NodeId) :
    history node ((nodes.map Signal.detach).map .signal) =
      if node ∈ nodes then [.detached] else [] := by
  induction nodes with
  | nil => rfl
  | cons first nodes ih =>
    obtain ⟨hfirst, hnodup⟩ := List.nodup_cons.1 hnodup
    rw [List.map_cons, history_signal_cons, ih hnodup]
    by_cases heq : first = node
    · subst heq
      simp [hfirst, Signal.node, Signal.role]
    · have hne : node ≠ first := by
        intro h
        exact heq h.symm
      simp [heq, hne, Signal.node]

/-- Tones are heard from one oscillator only. -/
theorem history_programme (node oscillator : NodeId) (tones : List Tone) (anchor : Seconds) :
    history node ((programme oscillator tones anchor).map .signal) =
      if oscillator = node then List.replicate tones.length .tuned else [] := by
  unfold programme
  -- the tones behind the first one begin at a later cursor
  generalize (0 : Seconds) = cursor
  induction tones generalizing cursor with
  | nil => simp [history]
  | cons tone tones ih =>
    rw [onsets, List.zipWith_cons_cons, history_signal_cons, ih]
    by_cases heq : oscillator = node
    · simp [heq, Signal.node, Signal.role, List.replicate_succ]
    · simp [heq, Signal.node]

theorem phaseOf_append (node : NodeId) (first second : List Call) :
    phaseOf node (first ++ second) =
      (phaseOf node first).bind (·.follow? (history node second)) := by
  rw [phaseOf, history_append, NodePhase.follow?_append]
  rfl

/-- A node that is not mentioned stays as it is. -/
theorem phaseOf_append_of_nil {node : NodeId} {first second : List Call}
    (h : history node second = []) : phaseOf node (first ++ second) = phaseOf node first := by
  rw [phaseOf_append, h]
  cases phaseOf node first <;> rfl

/-! ## The nodes of a recorder -/

namespace Recorder

/-- The phase of a node, as the record tells. -/
def phase (node : NodeId) (recorder : Recorder) : Option NodePhase :=
  phaseOf node recorder.calls

/-- Signals lead on from the phase that a node is in. -/
theorem phase_signalAll {node : NodeId} {recorder : Recorder} {phase : NodePhase}
    {roles : List Role} (signals : List Signal) (h : recorder.phase node = some phase)
    (hroles : history node (signals.map .signal) = roles) :
    (AudioGraph.signalAll signals recorder).phase node = phase.follow? roles := by
  rw [Recorder.phase, calls_signalAll, phaseOf_append, hroles]
  rw [Recorder.phase] at h
  rw [h]
  rfl

/-- Signals for other nodes leave a node in its phase. -/
theorem phase_signalAll_of_nil {node : NodeId} {recorder : Recorder} {signals : List Signal}
    (h : history node (signals.map .signal) = []) :
    (AudioGraph.signalAll signals recorder).phase node = recorder.phase node := by
  rw [Recorder.phase, calls_signalAll]
  exact phaseOf_append_of_nil h

/-- The nodes of voices and of a chain that is being built. -/
def inUse (voices : List Voice) (loose : List NodeId) : List NodeId :=
  loose ++ voices.flatMap (·.chain.nodes)

/-- Every node is in the phase in which its owner keeps it. -/
structure Tended (voices : List Voice) (loose : List NodeId) (recorder : Recorder) : Prop where
  positive : destination < recorder.nextNode
  /-- The chain of a voice begins with its oscillator. -/
  chains : ∀ voice ∈ voices, voice.chain.nodes.head? = some voice.oscillator
  nodup : (inUse voices loose).Nodup
  known : ∀ node ∈ inUse voices loose, node ≠ destination ∧ node < recorder.nextNode
  unborn : ∀ node, recorder.nextNode ≤ node → recorder.phase node = some .unborn
  /-- A chain that is being built begins with an oscillator. -/
  building : ∀ node ∈ loose,
    recorder.phase node = some (if loose.head? = some node then .silent else .effect)
  playing : ∀ voice ∈ voices, ∀ node ∈ voice.chain.nodes,
    recorder.phase node = some (if node = voice.oscillator then .sounding else .effect)
  gone : ∀ node, node ≠ destination → node < recorder.nextNode → node ∉ inUse voices loose →
    recorder.phase node = some .gone

variable {voices : List Voice} {loose : List NodeId} {recorder : Recorder}

theorem tended_withoutEffects (unsupported : List Setting) :
    Tended [] [] (withoutEffects unsupported) where
  positive := Nat.one_pos
  chains := fun _ hmem => absurd hmem List.not_mem_nil
  nodup := List.nodup_nil
  known := fun _ hmem => absurd hmem List.not_mem_nil
  unborn := fun _ _ => rfl
  building := fun _ hmem => absurd hmem List.not_mem_nil
  playing := fun _ hmem => absurd hmem List.not_mem_nil
  gone := fun _ hne hlt _ => absurd (Nat.lt_one_iff.1 hlt) hne

namespace Tended

/-- The order of the voices does not matter. -/
theorem perm {others : List Voice} (h : Tended voices loose recorder)
    (hperm : voices.Perm others) : Tended others loose recorder := by
  have hinUse : (inUse voices loose).Perm (inUse others loose) :=
    List.Perm.append_left loose (hperm.flatMap_right _)
  exact
    { h with
      chains := fun voice hmem => h.chains voice (hperm.mem_iff.2 hmem)
      nodup := hinUse.nodup_iff.1 h.nodup
      known := fun node hmem => h.known node (hinUse.mem_iff.2 hmem)
      playing := fun voice hmem => h.playing voice (hperm.mem_iff.2 hmem)
      gone := fun node hne hlt hmem => h.gone node hne hlt fun hin => hmem (hinUse.mem_iff.1 hin) }

/-- The nodes that a voice owns are those of its chain. -/
theorem mem_nodes_of_owned {voice : Voice} {node : NodeId} (h : Tended voices loose recorder)
    (hvoice : voice ∈ voices) (hmem : node ∈ voice.owned) : node ∈ voice.chain.nodes := by
  rcases List.mem_cons.1 hmem with rfl | hmem
  · exact List.mem_of_mem_head? (h.chains voice hvoice)
  · exact hmem

/-- What the host may change does not matter. -/
theorem congr {other : Recorder} (h : Tended voices loose recorder)
    (hcalls : other.calls = recorder.calls) (hnext : other.nextNode = recorder.nextNode) :
    Tended voices loose other := by
  have hphase : ∀ node, other.phase node = recorder.phase node := fun node => by
    rw [Recorder.phase, Recorder.phase, hcalls]
  exact
    { h with
      positive := hnext ▸ h.positive
      known := fun node hmem => hnext ▸ h.known node hmem
      unborn := fun node hle => (hphase node).trans (h.unborn node (hnext ▸ hle))
      building := fun node hmem => (hphase node).trans (h.building node hmem)
      playing := fun voice hvoice node hmem =>
        (hphase node).trans (h.playing voice hvoice node hmem)
      gone := fun node hne hlt hmem => (hphase node).trans (h.gone node hne (hnext ▸ hlt) hmem) }

/-! ### Nodes change hands -/

/-- Signals for nodes in use hand these over: those that are still in use are in the phase
in which their new owner keeps them, and all others are gone. -/
theorem handOver {signals : List Signal} {heirs : List Voice} {kept : List NodeId}
    (h : Tended voices loose recorder)
    (hquiet : ∀ node, node ∉ inUse voices loose → history node (signals.map .signal) = [])
    (hused : (inUse heirs kept).Sublist (inUse voices loose))
    (hchains : ∀ voice ∈ heirs, voice.chain.nodes.head? = some voice.oscillator)
    (hbuilding : ∀ node ∈ kept, (AudioGraph.signalAll signals recorder).phase node =
      some (if kept.head? = some node then .silent else .effect))
    (hplaying : ∀ voice ∈ heirs, ∀ node ∈ voice.chain.nodes,
      (AudioGraph.signalAll signals recorder).phase node =
        some (if node = voice.oscillator then .sounding else .effect))
    (hgone : ∀ node ∈ inUse voices loose, node ∉ inUse heirs kept →
      (AudioGraph.signalAll signals recorder).phase node = some .gone) :
    Tended heirs kept (AudioGraph.signalAll signals recorder) := by
  have hnext : (AudioGraph.signalAll signals recorder).nextNode = recorder.nextNode := by
    rw [signalAll_eq]
  refine
    { positive := hnext ▸ h.positive, chains := hchains, nodup := h.nodup.sublist hused
      known := fun node hmem => hnext ▸ h.known node (hused.subset hmem), unborn := ?_
      building := hbuilding, playing := hplaying, gone := ?_ }
  · intro node hle
    rw [hnext] at hle
    have hfree : node ∉ inUse voices loose := by
      intro hmem
      exact Nat.not_lt_of_le hle (h.known node hmem).2
    rw [phase_signalAll_of_nil (hquiet node hfree)]
    exact h.unborn node hle
  · intro node hne hlt hmem
    rw [hnext] at hlt
    by_cases hin : node ∈ inUse voices loose
    · exact hgone node hin hmem
    · rw [phase_signalAll_of_nil (hquiet node hin)]
      exact h.gone node hne hlt hin

/-- A chain that is given up leaves its nodes behind. -/
theorem discard (h : Tended voices loose recorder) :
    Tended voices [] (AudioGraph.signalAll (loose.map .detach) recorder) := by
  obtain ⟨hloose, -, hdisjoint⟩ := List.nodup_append'.1 h.nodup
  have hhistory := history_detach hloose
  have hquiet : ∀ node, node ∉ loose → history node ((loose.map .detach).map .signal) = [] := by
    intro node hmem
    exact (hhistory node).trans (if_neg hmem)
  refine h.handOver (fun node hmem => hquiet node fun hin => ?_)
    (List.sublist_append_right loose _) h.chains (fun _ hmem => absurd hmem List.not_mem_nil)
    ?_ ?_
  · exact hmem (List.mem_append_left _ hin)
  · intro voice hvoice node hmem
    have hnot : node ∉ loose := by
      intro hin
      exact hdisjoint hin (List.mem_flatMap.2 ⟨voice, hvoice, hmem⟩)
    rw [phase_signalAll_of_nil (hquiet node hnot)]
    exact h.playing voice hvoice node hmem
  · intro node hused hmem
    have hin : node ∈ loose := (List.mem_append.1 hused).resolve_right hmem
    rw [phase_signalAll _ (h.building node hin) (hhistory node), if_pos hin]
    split <;> rfl

/-- A chain whose voice starts hands its nodes over to the voice. -/
theorem start {chain : NodeChain} (h : Tended voices chain.nodes recorder)
    (hchain : chain.nodes.head? = some chain.entry) (tones : List Tone) (now : Seconds) :
    Tended (⟨chain⟩ :: voices) []
      (AudioGraph.signalAll (.start chain.entry now :: programme chain.entry tones now)
        recorder) := by
  have hentry : chain.entry ∈ chain.nodes := List.mem_of_mem_head? hchain
  have hhistory : ∀ node, history node
      ((Signal.start chain.entry now :: programme chain.entry tones now).map .signal) =
        if chain.entry = node then .started :: List.replicate tones.length .tuned else [] := by
    intro node
    rw [history_signal_cons, history_programme]
    by_cases heq : chain.entry = node
    · simp [heq, Signal.node, Signal.role]
    · simp [heq, Signal.node]
  generalize Signal.start chain.entry now :: programme chain.entry tones now =
    signals at hhistory ⊢
  have hquiet : ∀ node, chain.entry ≠ node → history node (signals.map .signal) = [] := by
    intro node hne
    exact (hhistory node).trans (if_neg hne)
  refine h.handOver (fun node hmem => hquiet node fun heq => ?_) (List.Sublist.refl _)
    (List.forall_mem_cons.2 ⟨hchain, h.chains⟩) (fun _ hmem => absurd hmem List.not_mem_nil)
    (fun voice hvoice node hmem => ?_) (fun node hin hmem => absurd hin hmem)
  · exact hmem (List.mem_append_left _ (heq ▸ hentry))
  · rcases List.mem_cons.1 hvoice with rfl | hvoice
    · have hphase := h.building node hmem
      rw [hchain] at hphase
      by_cases heq : chain.entry = node
      · rw [if_pos (congrArg some heq)] at hphase
        rw [phase_signalAll _ hphase (hhistory node), if_pos heq]
        exact (NodePhase.sounding_follow?_replicate _).trans
          (congrArg some (if_pos heq.symm).symm)
      · rw [if_neg (fun h => heq (Option.some.inj h))] at hphase
        rw [phase_signalAll_of_nil (hquiet node heq), hphase]
        exact congrArg some (if_neg fun h => heq h.symm).symm
    · have hne : chain.entry ≠ node := by
        intro heq
        exact (List.nodup_append'.1 h.nodup).2.2 hentry
          (List.mem_flatMap.2 ⟨voice, hvoice, heq ▸ hmem⟩)
      rw [phase_signalAll_of_nil (hquiet node hne)]
      exact h.playing voice hvoice node hmem

/-- A voice that begins once more keeps its nodes. -/
theorem again {voice : Voice} (h : Tended voices loose recorder) (hvoice : voice ∈ voices)
    (tones : List Tone) (now : Seconds) :
    Tended voices loose
      (AudioGraph.signalAll (programme voice.oscillator tones now) recorder) := by
  have hentry : voice.oscillator ∈ voice.chain.nodes :=
    List.mem_of_mem_head? (h.chains voice hvoice)
  have hhistory := fun node => history_programme node voice.oscillator tones now
  -- tones leave an oscillator that sounds in its phase, and they touch no other node
  have hphase : ∀ node phase, recorder.phase node = some phase →
      (AudioGraph.signalAll (programme voice.oscillator tones now) recorder).phase node =
        some phase := by
    intro node phase hphase
    by_cases heq : voice.oscillator = node
    · subst heq
      have hsounding := h.playing voice hvoice _ hentry
      rw [if_pos rfl] at hsounding
      obtain rfl : phase = .sounding := Option.some.inj (hphase.symm.trans hsounding)
      rw [phase_signalAll _ hphase (hhistory _), if_pos rfl,
        NodePhase.sounding_follow?_replicate]
    · rw [phase_signalAll_of_nil ((hhistory node).trans (if_neg heq)), hphase]
  refine h.handOver (fun node hmem => (hhistory node).trans (if_neg fun heq => ?_))
    (List.Sublist.refl _) h.chains (fun node hmem => hphase node _ (h.building node hmem))
    (fun voice hvoice node hmem => hphase node _ (h.playing voice hvoice node hmem))
    (fun node hin hmem => absurd hin hmem)
  exact hmem (List.mem_append_right _ (List.mem_flatMap.2 ⟨voice, hvoice, heq ▸ hentry⟩))

/-- A voice that is released leaves its nodes behind. -/
theorem release {voice : Voice} (h : Tended (voice :: voices) [] recorder) (now : Seconds) :
    Tended voices [] (AudioGraph.signalAll (voice.release now) recorder) := by
  have hentry : voice.oscillator ∈ voice.chain.nodes :=
    List.mem_of_mem_head? (h.chains voice List.mem_cons_self)
  have hnodup : (voice.chain.nodes ++ inUse voices []).Nodup := h.nodup
  obtain ⟨hnodes, -, hdisjoint⟩ := List.nodup_append'.1 hnodup
  have hhistory : ∀ node, history node ((voice.release now).map .signal) =
      (if voice.oscillator = node then [.stopped] else []) ++
        if node ∈ voice.chain.nodes then [.detached] else [] := by
    intro node
    rw [Voice.release, history_signal_cons, Voice.discard, history_detach hnodes]
    rfl
  have hquiet : ∀ node, node ∉ voice.chain.nodes →
      history node ((voice.release now).map .signal) = [] := by
    intro node hmem
    have hne : voice.oscillator ≠ node := fun heq => hmem (heq ▸ hentry)
    rw [hhistory node, if_neg hmem, if_neg hne]
    rfl
  refine h.handOver (fun node hmem => hquiet node fun hin => ?_)
    (List.sublist_append_right voice.chain.nodes _)
    (fun other hmem => h.chains other (List.mem_cons_of_mem _ hmem))
    (fun _ hmem => absurd hmem List.not_mem_nil) ?_ ?_
  · exact hmem (List.mem_flatMap.2 ⟨voice, List.mem_cons_self, hin⟩)
  · intro other hvoice node hmem
    have hnot : node ∉ voice.chain.nodes := by
      intro hin
      exact hdisjoint hin (List.mem_flatMap.2 ⟨other, hvoice, hmem⟩)
    rw [phase_signalAll_of_nil (hquiet node hnot)]
    exact h.playing other (List.mem_cons_of_mem _ hvoice) node hmem
  · intro node hused hmem
    have hin : node ∈ voice.chain.nodes :=
      (List.mem_append (s := voice.chain.nodes) (t := inUse voices [])).1 hused
        |>.resolve_right hmem
    have hphase := h.playing voice List.mem_cons_self node hin
    rw [phase_signalAll _ hphase (hhistory node), if_pos hin]
    by_cases heq : node = voice.oscillator
    · rw [if_pos heq, if_pos heq.symm]
      rfl
    · rw [if_neg heq, if_neg fun h => heq h.symm]
      rfl

/-! ### Building a chain -/

/-- A node that is created joins the chain that is being built. -/
theorem create {call : Call} {role : Role} (h : Tended voices loose recorder)
    (hcall : ∀ node, call.role? node = if recorder.nextNode = node then some role else none)
    (hrole : NodePhase.unborn.next? role =
      some (if (loose ++ [recorder.nextNode]).head? = some recorder.nextNode then .silent
        else .effect)) :
    Tended voices (loose ++ [recorder.nextNode])
      { recorder with
        calls := recorder.calls ++ [call]
        nextNode := recorder.nextNode + 1 } := by
  generalize hnext : { recorder with
    calls := recorder.calls ++ [call]
    nextNode := recorder.nextNode + 1 } = next
  have hother : ∀ node, recorder.nextNode ≠ node → next.phase node = recorder.phase node := by
    intro node hne
    subst hnext
    refine phaseOf_append_of_nil ?_
    simp [history, hcall, hne]
  have hnew : next.phase recorder.nextNode = NodePhase.unborn.next? role := by
    have hunborn := h.unborn recorder.nextNode (Nat.le_refl _)
    subst hnext
    rw [Recorder.phase] at hunborn ⊢
    rw [phaseOf_append, hunborn]
    simp [history, hcall]
  have hnumber : next.nextNode = recorder.nextNode + 1 := by rw [← hnext]
  have hfresh : recorder.nextNode ∉ inUse voices loose := by
    intro hmem
    exact Nat.lt_irrefl _ (h.known _ hmem).2
  have hperm : (inUse voices (loose ++ [recorder.nextNode])).Perm
      (recorder.nextNode :: inUse voices loose) := by
    rw [inUse, List.append_assoc]
    exact List.perm_middle
  have hne : ∀ node ∈ inUse voices loose, recorder.nextNode ≠ node := by
    intro node hmem heq
    exact hfresh (heq ▸ hmem)
  refine
    { positive := hnumber ▸ Nat.succ_pos _, chains := h.chains
      nodup := hperm.nodup_iff.2 (List.nodup_cons.2 ⟨hfresh, h.nodup⟩), known := ?_
      unborn := ?_, building := ?_, playing := ?_, gone := ?_ }
  · intro node hmem
    rw [hnumber]
    rcases List.mem_cons.1 (hperm.mem_iff.1 hmem) with rfl | hmem
    · exact ⟨Nat.ne_of_gt h.positive, Nat.lt_succ_self _⟩
    · exact ⟨(h.known node hmem).1, Nat.lt_succ_of_lt (h.known node hmem).2⟩
  · intro node hle
    rw [hnumber] at hle
    rw [hother node (Nat.ne_of_lt hle)]
    exact h.unborn node (Nat.le_of_lt hle)
  · intro node hmem
    rcases List.mem_append.1 hmem with hmem | hmem
    · rw [hother node (hne node (List.mem_append_left _ hmem)), h.building node hmem,
        List.head?_append_of_ne_nil _ (List.ne_nil_of_mem hmem)]
    · obtain rfl := List.mem_singleton.1 hmem
      rw [hnew, hrole]
  · intro voice hvoice node hmem
    have hin : node ∈ inUse voices loose :=
      List.mem_append_right _ (List.mem_flatMap.2 ⟨voice, hvoice, hmem⟩)
    rw [hother node (hne node hin)]
    exact h.playing voice hvoice node hmem
  · intro node hdest hlt hmem
    rw [hnumber] at hlt
    have hne : recorder.nextNode ≠ node := by
      intro heq
      exact hmem (hperm.mem_iff.2 (heq ▸ List.mem_cons_self))
    rw [hother node hne]
    refine h.gone node hdest (Nat.lt_of_le_of_ne (Nat.le_of_lt_succ hlt) hne.symm) fun hin => ?_
    exact hmem (hperm.mem_iff.2 (List.mem_cons_of_mem _ hin))

/-- A chain begins with the oscillator that is created first. -/
theorem newOscillator (h : Tended voices [] recorder) (waveform : Waveform) :
    Tended voices [recorder.nextNode]
      { recorder with
        calls := recorder.calls ++ [Call.newOscillator recorder.nextNode waveform]
        nextNode := recorder.nextNode + 1 } := by
  have hcall : ∀ node, (Call.newOscillator recorder.nextNode waveform).role? node =
      if recorder.nextNode = node then some .madeOscillator else none := by
    intro node
    rfl
  have hrole : NodePhase.unborn.next? .madeOscillator =
      some (if [recorder.nextNode].head? = some recorder.nextNode then .silent else .effect) := by
    have hfirst : [recorder.nextNode].head? = some recorder.nextNode := rfl
    rw [if_pos hfirst]
    rfl
  exact h.create hcall hrole

/-- Effects come behind it. -/
theorem newEffect (h : Tended voices loose recorder) (effect : Effect) (hne : loose ≠ []) :
    Tended voices (loose ++ [recorder.nextNode])
      { recorder with
        calls := recorder.calls ++ [Call.newEffect recorder.nextNode effect]
        nextNode := recorder.nextNode + 1 } := by
  have hcall : ∀ node, (Call.newEffect recorder.nextNode effect).role? node =
      if recorder.nextNode = node then some .madeEffect else none := by
    intro node
    rfl
  have hfirst : (loose ++ [recorder.nextNode]).head? ≠ some recorder.nextNode := by
    rw [List.head?_append_of_ne_nil _ hne]
    intro heq
    have hmem := List.mem_append_left (voices.flatMap (·.chain.nodes)) (List.mem_of_mem_head? heq)
    exact Nat.lt_irrefl _ (h.known _ hmem).2
  have hrole : NodePhase.unborn.next? .madeEffect =
      some (if (loose ++ [recorder.nextNode]).head? = some recorder.nextNode then .silent
        else .effect) := by
    rw [if_neg hfirst]
    rfl
  exact h.create hcall hrole

/-- Wires are laid between nodes of the chain, and at its end to the destination. -/
theorem wire {source target : NodeId} (h : Tended voices loose recorder)
    (hsource : source ∈ loose) (htarget : target ∈ loose ∨ target = destination) :
    Tended voices loose
      { recorder with calls := recorder.calls ++ [Call.wire source target] } := by
  generalize hnext :
    { recorder with calls := recorder.calls ++ [Call.wire source target] } = next
  have hnumber : next.nextNode = recorder.nextNode := by rw [← hnext]
  have hhistory : ∀ node, history node [Call.wire source target] =
      if source = node ∨ target = node then [.wired] else [] := by
    intro node
    rw [history, List.filterMap_cons, Call.role?]
    split <;> simp_all
  have hother : ∀ node, node ≠ destination → node ∉ loose →
      next.phase node = recorder.phase node := by
    intro node hdest hmem
    subst hnext
    refine phaseOf_append_of_nil ((hhistory node).trans (if_neg ?_))
    rintro (rfl | rfl)
    · exact hmem hsource
    · exact htarget.elim hmem hdest
  have hbuilding : ∀ node ∈ loose, next.phase node = recorder.phase node := by
    intro node hmem
    have hphase := h.building node hmem
    subst hnext
    rw [Recorder.phase] at hphase ⊢
    rw [Recorder.phase, phaseOf_append, hphase, hhistory]
    split <;> split <;> rfl
  have hsame : ∀ node, node ≠ destination → next.phase node = recorder.phase node := by
    intro node hdest
    by_cases hmem : node ∈ loose
    · exact hbuilding node hmem
    · exact hother node hdest hmem
  refine
    { h with
      positive := hnumber ▸ h.positive, known := fun node hmem => hnumber ▸ h.known node hmem
      unborn := ?_, building := ?_, playing := ?_, gone := ?_ }
  · intro node hle
    rw [hnumber] at hle
    have hdest : node ≠ destination := Nat.ne_of_gt (Nat.lt_of_lt_of_le h.positive hle)
    exact (hsame node hdest).trans (h.unborn node hle)
  · intro node hmem
    exact (hbuilding node hmem).trans (h.building node hmem)
  · intro voice hvoice node hmem
    have hin : node ∈ inUse voices loose :=
      List.mem_append_right _ (List.mem_flatMap.2 ⟨voice, hvoice, hmem⟩)
    exact (hsame node (h.known node hin).1).trans (h.playing voice hvoice node hmem)
  · intro node hdest hlt hmem
    exact (hsame node hdest).trans (h.gone node hdest (hnumber ▸ hlt) hmem)

/-- Whether or not the graph refuses a call, a chain that grows keeps the nodes it has. -/
theorem append (effects : List Effect) {tail : NodeId} (h : Tended voices loose recorder)
    (htail : tail ∈ loose) :
    Tended voices (NodeChain.append destination effects tail loose recorder).1.2
        (NodeChain.append destination effects tail loose recorder).2 ∧
      (NodeChain.append destination effects tail loose recorder).1.2.head? = loose.head? := by
  induction effects generalizing tail loose recorder with
  | nil =>
    unfold NodeChain.append
    rcases wire_cases tail destination recorder with ⟨fault, heq⟩ | heq
    · rw [heq]
      exact ⟨h, rfl⟩
    · rw [heq]
      exact ⟨h.wire htail (Or.inr rfl), rfl⟩
  | cons effect effects ih =>
    unfold NodeChain.append
    split
    · rcases newEffect_cases effect recorder with heq | heq
      · rw [heq]
        exact ⟨h, rfl⟩
      · rw [heq]
        have hne : loose ≠ [] := List.ne_nil_of_mem htail
        have hhead : (loose ++ [recorder.nextNode]).head? = loose.head? :=
          List.head?_append_of_ne_nil _ hne
        have hnew : recorder.nextNode ∈ loose ++ [recorder.nextNode] :=
          List.mem_append_right _ (List.mem_singleton_self _)
        have htail' : tail ∈ loose ++ [recorder.nextNode] := List.mem_append_left _ htail
        have hcreated := h.newEffect effect hne
        generalize { recorder with
          calls := recorder.calls ++ [Call.newEffect recorder.nextNode effect]
          nextNode := recorder.nextNode + 1 } = created at hcreated ⊢
        simp only
        rcases wire_cases tail recorder.nextNode created with ⟨fault, heq⟩ | heq
        · rw [heq]
          exact ⟨hcreated, hhead⟩
        · rw [heq]
          obtain ⟨hgrown, hfirst⟩ := ih (hcreated.wire htail' (Or.inl hnew)) hnew
          exact ⟨hgrown, hfirst.trans hhead⟩
    · exact ih h htail

/-- A chain is built from fresh nodes, or given up without a trace in use. -/
theorem build (instrument : Instrument) (h : Tended voices [] recorder) :
    (∃ chain built, NodeChain.build instrument destination recorder = (.ok chain, built) ∧
      Tended voices chain.nodes built ∧ chain.nodes.head? = some chain.entry) ∨
    (∃ fault left, NodeChain.build instrument destination recorder = (.error fault, left) ∧
      Tended voices [] left) := by
  obtain ⟨refuses, allowance, heq | heq⟩ := newOscillator_cases instrument.waveform recorder
  · refine Or.inr ⟨.nodeRefused .oscillator,
      { recorder with refusesOscillators := refuses, allowance := allowance }, ?_,
      h.congr rfl rfl⟩
    unfold NodeChain.build
    rw [heq]
  · unfold NodeChain.build
    rw [heq]
    simp only
    have hcreated : Tended voices [recorder.nextNode]
        { recorder with
          refusesOscillators := refuses
          allowance := allowance
          calls := recorder.calls ++ [.newOscillator recorder.nextNode instrument.waveform]
          nextNode := recorder.nextNode + 1 } :=
      (h.newOscillator instrument.waveform).congr rfl rfl
    obtain ⟨hgrown, hfirst⟩ :=
      hcreated.append instrument.effects (List.mem_singleton_self recorder.nextNode)
    split
    · rename_i terminal nodes built hbuilt
      rw [hbuilt] at hgrown hfirst
      exact Or.inl ⟨_, _, rfl, hgrown, hfirst⟩
    · rename_i fault nodes left hleft
      rw [hleft] at hgrown
      exact Or.inr ⟨_, _, rfl, hgrown.discard⟩

end Tended

end Recorder

end Chiptune
