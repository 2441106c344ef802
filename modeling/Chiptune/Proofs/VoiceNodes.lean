/-
  The nodes of a voice and the calls that are made on them.
-/
import Chiptune.Playback.Voice

set_option autoImplicit false

namespace Chiptune

namespace Voice

/-- The nodes that a voice drives or detaches. -/
def owned (voice : Voice) : List NodeId := voice.oscillator :: voice.chain.nodes

/-- Two voices are apart when no node belongs to both. -/
def Apart (voice other : Voice) : Prop := ∀ node ∈ voice.owned, node ∉ other.owned

instance (voice other : Voice) : Decidable (Apart voice other) :=
  inferInstanceAs (Decidable (∀ node ∈ voice.owned, _))

/-- Whether a call mentions a node of a voice. -/
def concerns (voice : Voice) (call : Call) : Bool :=
  call.nodes.any fun node => decide (node ∈ voice.owned)

/-- What signals do to the nodes of a voice. -/
def callsOn (voice : Voice) (signals : List Signal) : List Call :=
  (signals.map .signal).filter voice.concerns

theorem Apart.symm {voice other : Voice} (h : voice.Apart other) : other.Apart voice :=
  fun node hother hmem => h node hmem hother

variable {voice other : Voice} {signals : List Signal}

theorem concerns_signal (voice : Voice) (given : Signal) :
    voice.concerns (.signal given) = decide (given.node ∈ voice.owned) := by
  simp [concerns, Call.nodes]

@[simp] theorem callsOn_nil (voice : Voice) : voice.callsOn [] = [] := rfl

theorem callsOn_flatMap {α : Type} (voice : Voice) (items : List α) (f : α → List Signal) :
    voice.callsOn (items.flatMap f) = items.flatMap fun item => voice.callsOn (f item) := by
  rw [callsOn, List.map_flatMap, List.filter_flatMap]
  rfl

/-- Signals for nodes of the voice all count. -/
theorem callsOn_eq_map (h : ∀ given ∈ signals, given.node ∈ voice.owned) :
    voice.callsOn signals = signals.map .signal := by
  refine List.filter_eq_self.2 fun call hmem => ?_
  obtain ⟨given, hgiven, rfl⟩ := List.mem_map.1 hmem
  rw [concerns_signal, decide_eq_true (h given hgiven)]

/-- Signals for nodes of a voice that is apart do not count. -/
theorem callsOn_eq_nil (hapart : voice.Apart other)
    (h : ∀ given ∈ signals, given.node ∈ other.owned) : voice.callsOn signals = [] := by
  refine List.filter_eq_nil_iff.2 fun call hmem => ?_
  obtain ⟨given, hgiven, rfl⟩ := List.mem_map.1 hmem
  rw [concerns_signal, decide_eq_true_eq]
  exact hapart.symm _ (h given hgiven)

theorem node_of_mem_discard {given : Signal} (h : given ∈ voice.discard) :
    given.node ∈ voice.owned := by
  obtain ⟨node, hnode, rfl⟩ := List.mem_map.1 h
  exact List.mem_cons_of_mem _ hnode

theorem node_of_mem_release {given : Signal} {now : Seconds} (h : given ∈ voice.release now) :
    given.node ∈ voice.owned := by
  rcases List.mem_cons.1 h with rfl | h
  · exact List.mem_cons_self
  · exact node_of_mem_discard h

/-- A voice that starts drives its oscillator. -/
theorem node_of_mem_start {given : Signal} {now : Seconds}
    (hall : ∀ given ∈ signals, given.node ∈ voice.owned)
    (h : given ∈ .start voice.oscillator now :: signals) : given.node ∈ voice.owned := by
  rcases List.mem_cons.1 h with rfl | h
  · exact List.mem_cons_self
  · exact hall given h

end Voice

/-- Tones are played by steps of the frequency of one oscillator. -/
theorem mem_programme {oscillator : NodeId} {tones : List Tone} {anchor : Seconds}
    {given : Signal} (h : given ∈ programme oscillator tones anchor) :
    ∃ hz time, given = .tune oscillator hz time := by
  unfold programme at h
  -- the tones behind the first one begin at a later cursor
  generalize (0 : Seconds) = cursor at h
  induction tones generalizing cursor with
  | nil => cases h
  | cons tone tones ih =>
    rw [onsets, List.zipWith_cons_cons] at h
    rcases List.mem_cons.1 h with rfl | h
    · exact ⟨tone.hz, anchor + cursor, rfl⟩
    · exact ih _ h

theorem Voice.node_of_mem_programme {voice : Voice} {tones : List Tone} {anchor : Seconds}
    {given : Signal} (h : given ∈ programme voice.oscillator tones anchor) :
    given.node ∈ voice.owned := by
  obtain ⟨hz, time, rfl⟩ := mem_programme h
  exact List.mem_cons_self

end Chiptune
