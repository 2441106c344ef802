/-
  What a table of nodes tells of a record.

  The calls of a record are carried out on a table, one after the other.  What the table has
  for a node depends on the calls that mention this node alone: on the phase that they
  lead to, on the last wire that leaves the node, and on the waveform it was created with.
-/
import Chiptune.Proofs.Life
import Chiptune.Sound.NodeTable

set_option autoImplicit false

namespace Chiptune

/-! ## Looking nodes up -/

namespace NodeTable

variable {id : NodeId} {table : NodeTable}

/-- The numbers of the nodes in a table. -/
def ids (table : NodeTable) : List NodeId := table.map (·.1)

theorem lookup_cons (other here : NodeId) (wired : WiredNode) (rest : NodeTable) :
    List.lookup other ((here, wired) :: rest) =
      if other = here then some wired else rest.lookup other := by
  rw [List.lookup_cons]
  by_cases heq : other = here
  · rw [if_pos heq, beq_iff_eq.2 heq]
  · rw [if_neg heq, beq_eq_false_iff_ne.2 heq]

theorem lookup_insert (id other : NodeId) (node : SoundNode) (table : NodeTable) :
    (table.insert id node).lookup other =
      if other = id then some ⟨node, none⟩ else table.lookup other := by
  induction table with
  | nil =>
    rw [insert, lookup_cons]
  | cons first rest ih =>
    obtain ⟨here, wired⟩ := first
    unfold insert
    split
    · rename_i heq
      subst heq
      rw [lookup_cons, lookup_cons]
      split <;> rfl
    · rename_i hne
      rw [lookup_cons, lookup_cons, ih]
      by_cases heq : other = here
      · rw [if_pos heq, if_pos heq, if_neg (heq ▸ hne)]
      · rw [if_neg heq, if_neg heq]

theorem lookup_modify (id other : NodeId) (change : WiredNode → WiredNode)
    (table : NodeTable) :
    (table.modify id change).lookup other =
      if other = id then (table.lookup other).map change else table.lookup other := by
  induction table with
  | nil =>
    split <;> rfl
  | cons first rest ih =>
    obtain ⟨here, wired⟩ := first
    unfold modify at ih ⊢
    rw [List.map_cons, lookup_cons, lookup_cons, ih]
    by_cases heq : other = here
    · subst heq
      rw [if_pos rfl, if_pos rfl]
      split <;> rfl
    · rw [if_neg heq, if_neg heq]

theorem lookup_erase (id other : NodeId) (table : NodeTable) :
    (table.erase id).lookup other = if other = id then none else table.lookup other := by
  induction table with
  | nil =>
    split <;> rfl
  | cons first rest ih =>
    obtain ⟨here, wired⟩ := first
    unfold erase at ih ⊢
    by_cases hhere : here = id
    · subst hhere
      rw [List.filter_cons_of_neg (by simp), ih, lookup_cons]
      split <;> rfl
    · rw [List.filter_cons_of_pos (by simpa using hhere), lookup_cons, lookup_cons, ih]
      by_cases heq : other = here
      · rw [if_pos heq, if_pos heq, if_neg (heq ▸ hhere)]
      · rw [if_neg heq, if_neg heq]

theorem mem_ids_iff : id ∈ table.ids ↔ (table.lookup id).isSome = true := by
  induction table with
  | nil => simp [ids]
  | cons first rest ih =>
    obtain ⟨here, wired⟩ := first
    unfold ids at ih ⊢
    rw [List.map_cons, List.mem_cons, lookup_cons, ih]
    by_cases heq : id = here
    · simp [heq]
    · simp [heq]

/-! ## Numbers are kept apart -/

theorem ids_modify (id : NodeId) (change : WiredNode → WiredNode) (table : NodeTable) :
    (table.modify id change).ids = table.ids := by
  rw [ids, modify, List.map_map]
  rfl

theorem mem_ids_insert {node : SoundNode} {other : NodeId}
    (h : other ∈ (table.insert id node).ids) : other = id ∨ other ∈ table.ids := by
  rw [mem_ids_iff, lookup_insert] at h
  split at h
  · exact Or.inl ‹_›
  · exact Or.inr (mem_ids_iff.2 h)

theorem nodup_insert (id : NodeId) (node : SoundNode) (h : table.ids.Nodup) :
    (table.insert id node).ids.Nodup := by
  induction table with
  | nil => simp [insert, ids]
  | cons first rest ih =>
    obtain ⟨here, wired⟩ := first
    obtain ⟨hfirst, hrest⟩ := List.nodup_cons.1 h
    unfold insert
    split
    · rename_i heq
      exact heq ▸ h
    · rename_i hne
      refine List.nodup_cons.2 ⟨?_, ih hrest⟩
      intro hmem
      exact (mem_ids_insert hmem).elim hne hfirst

theorem nodup_erase (id : NodeId) (h : table.ids.Nodup) : (table.erase id).ids.Nodup :=
  h.sublist (List.filter_sublist.map _)

theorem nodup_apply (rate : Float32) (call : Call) (h : table.ids.Nodup) :
    (table.apply rate call).ids.Nodup := by
  cases call with
  | newOscillator id waveform => exact nodup_insert id _ h
  | newEffect id effect => exact nodup_insert id _ h
  | wire source target =>
    rw [apply, ids_modify]
    exact h
  | signal given =>
    cases given with
    | detach id => exact nodup_erase id h
    | start id time =>
      rw [apply, modifyTone, ids_modify]
      exact h
    | stop id time =>
      rw [apply, modifyTone, ids_modify]
      exact h
    | tune id hz time =>
      rw [apply, modifyTone, ids_modify]
      exact h

/-- No number is used for two nodes. -/
theorem nodup_applyAll (rate : Float32) (calls : List Call) (h : table.ids.Nodup) :
    (table.applyAll rate calls).ids.Nodup := by
  induction calls generalizing table with
  | nil => exact h
  | cons call calls ih => exact ih (nodup_apply rate call h)

end NodeTable

/-! ## What calls tell of one node -/

/-- The last thing that is read from calls. -/
def lastOf {α : Type} (read : Call → Option α) (calls : List Call) : Option α :=
  (calls.filterMap read).getLast?

theorem lastOf_append {α : Type} (read : Call → Option α) (first second : List Call) :
    lastOf read (first ++ second) = (lastOf read second).or (lastOf read first) := by
  rw [lastOf, List.filterMap_append, List.getLast?_append]
  rfl

theorem lastOf_concat {α : Type} (read : Call → Option α) (calls : List Call) (call : Call) :
    lastOf read (calls ++ [call]) = (read call).or (lastOf read calls) := by
  rw [lastOf_append]
  cases h : read call with
  | none => simp [lastOf, h]
  | some value => simp [lastOf, h]

/-- Where a call leads a node. -/
def Call.target? (node : NodeId) : Call → Option NodeId
  | wire source target => if source = node then some target else none
  | _ => none

/-- The waveform that a call gives to a node. -/
def Call.waveform? (node : NodeId) : Call → Option Waveform
  | newOscillator other waveform => if other = node then some waveform else none
  | _ => none

/-- Where calls lead a node in the end. -/
def targetOf (node : NodeId) (calls : List Call) : Option NodeId := lastOf (·.target? node) calls

/-- The waveform that calls give to a node. -/
def waveformOf (node : NodeId) (calls : List Call) : Option Waveform :=
  lastOf (·.waveform? node) calls

section

variable {node : NodeId} {call : Call} {calls : List Call}

theorem targetOf_concat (node : NodeId) (calls : List Call) (call : Call) :
    targetOf node (calls ++ [call]) = (call.target? node).or (targetOf node calls) :=
  lastOf_concat _ calls call

theorem waveformOf_concat (node : NodeId) (calls : List Call) (call : Call) :
    waveformOf node (calls ++ [call]) = (call.waveform? node).or (waveformOf node calls) :=
  lastOf_concat _ calls call

/-- A call that does not mention a node leads it nowhere. -/
theorem target?_of_role? (h : call.role? node = none) : call.target? node = none := by
  cases call with
  | wire source target =>
    have hnot : ¬ (source = node ∨ target = node) := by simpa [Call.role?] using h
    exact if_neg fun heq => hnot (Or.inl heq)
  | _ => rfl

theorem waveform?_of_role? (h : call.role? node = none) : call.waveform? node = none := by
  cases call with
  | newOscillator other waveform =>
    have hnot : other ≠ node := by simpa [Call.role?] using h
    exact if_neg hnot
  | _ => rfl

/-- What is not mentioned is not changed. -/
theorem NodeTable.lookup_apply_of_role? (rate : Float32) (h : call.role? node = none)
    (table : NodeTable) : (table.apply rate call).lookup node = table.lookup node := by
  cases call with
  | newOscillator other waveform =>
    have hnot : other ≠ node := by simpa [Call.role?] using h
    rw [apply, lookup_insert, if_neg hnot.symm]
  | newEffect other effect =>
    have hnot : other ≠ node := by simpa [Call.role?] using h
    rw [apply, lookup_insert, if_neg hnot.symm]
  | wire source target =>
    have hnot : ¬ (source = node ∨ target = node) := by simpa [Call.role?] using h
    rw [apply, lookup_modify, if_neg fun heq => hnot (Or.inl heq.symm)]
  | signal given =>
    have hnot : given.node ≠ node := by simpa [Call.role?] using h
    cases given with
    | detach other => rw [apply, lookup_erase, if_neg fun heq => hnot heq.symm]
    | start other time => rw [apply, modifyTone, lookup_modify, if_neg fun heq => hnot heq.symm]
    | stop other time => rw [apply, modifyTone, lookup_modify, if_neg fun heq => hnot heq.symm]
    | tune other hz time => rw [apply, modifyTone, lookup_modify, if_neg fun heq => hnot heq.symm]

/-- An oscillator is changed in place. -/
theorem NodeTable.lookup_modifyTone {table : NodeTable} {tone : Oscillator}
    {output : Option NodeId} (change : Oscillator → Oscillator)
    (h : table.lookup node = some ⟨.oscillator tone, output⟩) :
    (table.modifyTone node change).lookup node =
      some ⟨.oscillator (change tone), output⟩ := by
  rw [modifyTone, lookup_modify, if_pos rfl, h]
  rfl

end

/-! ## Phases in a table -/

/-- What a table has for a node in a phase. -/
def NodePhase.Shows (node : NodeId) (calls : List Call) (phase : NodePhase)
    (entry : Option WiredNode) : Prop :=
  match phase with
  | unborn => entry = none ∧ targetOf node calls = none
  | effect => ∃ effect, entry = some ⟨.effect effect, targetOf node calls⟩
  | silent => ∃ tone, entry = some ⟨.oscillator tone, targetOf node calls⟩ ∧
      waveformOf node calls = some tone.waveform ∧ tone.startTime = none ∧ tone.stopTime = none
  | sounding => ∃ tone, entry = some ⟨.oscillator tone, targetOf node calls⟩ ∧
      waveformOf node calls = some tone.waveform ∧ tone.startTime.isSome = true ∧
      tone.stopTime = none
  | still => ∃ tone, entry = some ⟨.oscillator tone, targetOf node calls⟩ ∧
      waveformOf node calls = some tone.waveform ∧ tone.startTime.isSome = true ∧
      tone.stopTime.isSome = true
  | gone => entry = none

namespace NodePhase

variable {node : NodeId} {calls : List Call} {call : Call} {phase next : NodePhase}
  {table : NodeTable} {rate : Float32}

/-- Only the last wire and the waveform count of the calls. -/
theorem Shows.congr {others : List Call} {entry : Option WiredNode}
    (h : phase.Shows node calls entry) (htarget : targetOf node others = targetOf node calls)
    (hwaveform : waveformOf node others = waveformOf node calls) :
    phase.Shows node others entry := by
  cases phase <;> simp only [Shows, htarget, hwaveform] at h ⊢
  all_goals exact h

/-- A call that does not mention the node changes nothing. -/
theorem Shows.skip (rate : Float32) (h : phase.Shows node calls (table.lookup node))
    (hrole : call.role? node = none) :
    phase.Shows node (calls ++ [call]) ((table.apply rate call).lookup node) := by
  rw [NodeTable.lookup_apply_of_role? rate hrole]
  refine h.congr ?_ ?_
  · rw [targetOf_concat, target?_of_role? hrole]
    rfl
  · rw [waveformOf_concat, waveform?_of_role? hrole]
    rfl

theorem Shows.newOscillator (rate : Float32) (waveform : Waveform)
    (h : unborn.Shows node calls (table.lookup node)) :
    silent.Shows node (calls ++ [.newOscillator node waveform])
      ((table.apply rate (.newOscillator node waveform)).lookup node) := by
  refine ⟨.silent waveform rate, ?_, ?_, rfl, rfl⟩
  · rw [NodeTable.apply, NodeTable.lookup_insert, if_pos rfl, targetOf_concat, h.2]
    rfl
  · rw [waveformOf_concat, Call.waveform?, if_pos rfl]
    rfl

theorem Shows.newEffect (rate : Float32) (given : Effect)
    (h : unborn.Shows node calls (table.lookup node)) :
    effect.Shows node (calls ++ [.newEffect node given])
      ((table.apply rate (.newEffect node given)).lookup node) := by
  refine ⟨given, ?_⟩
  rw [NodeTable.apply, NodeTable.lookup_insert, if_pos rfl, targetOf_concat, h.2]
  rfl

/-- A wire leads its source on, and it leaves its target as it is. -/
theorem lookup_wire {node source target : NodeId} {made : SoundNode}
    (h : table.lookup node = some ⟨made, targetOf node calls⟩) :
    (table.apply rate (.wire source target)).lookup node =
      some ⟨made, targetOf node (calls ++ [.wire source target])⟩ := by
  rw [NodeTable.apply, NodeTable.lookup_modify, targetOf_concat, Call.target?]
  by_cases heq : node = source
  · rw [if_pos heq, if_pos heq.symm, h]
    rfl
  · rw [if_neg heq, if_neg fun hsame => heq hsame.symm, h]
    rfl

theorem Shows.wire (rate : Float32) (source target : NodeId)
    (h : phase.Shows node calls (table.lookup node)) (hphase : phase.next? .wired = some next) :
    next.Shows node (calls ++ [.wire source target])
      ((table.apply rate (.wire source target)).lookup node) := by
  cases phase <;> cases hphase
  · obtain ⟨given, hentry⟩ := h
    exact ⟨given, lookup_wire hentry⟩
  · obtain ⟨tone, hentry, hwaveform, htimes⟩ := h
    refine ⟨tone, lookup_wire hentry, ?_, htimes⟩
    rw [waveformOf_concat]
    exact hwaveform

/-- A signal leads a node nowhere. -/
theorem targetOf_signal (node : NodeId) (calls : List Call) (given : Signal) :
    targetOf node (calls ++ [.signal given]) = targetOf node calls :=
  targetOf_concat node calls (.signal given)

theorem waveformOf_signal (node : NodeId) (calls : List Call) (given : Signal) :
    waveformOf node (calls ++ [.signal given]) = waveformOf node calls :=
  waveformOf_concat node calls (.signal given)

theorem Shows.signal (rate : Float32) {given : Signal} (hnode : given.node = node)
    (h : phase.Shows node calls (table.lookup node))
    (hphase : phase.next? given.role = some next) :
    next.Shows node (calls ++ [.signal given])
      ((table.apply rate (.signal given)).lookup node) := by
  cases given with
  | detach other =>
    obtain rfl : other = node := hnode
    obtain ⟨rfl, -⟩ := of_next?_detached hphase
    rw [NodeTable.apply, NodeTable.lookup_erase, if_pos rfl]
    rfl
  | start other time =>
    obtain rfl : other = node := hnode
    obtain rfl := eq_silent_of_next?_started hphase
    cases hphase
    obtain ⟨tone, hentry, hwaveform, -, hstop⟩ := h
    refine ⟨tone.start time.toFloat, ?_, ?_, rfl, hstop⟩
    · rw [targetOf_signal]
      exact NodeTable.lookup_modifyTone _ hentry
    · rw [waveformOf_signal]
      exact hwaveform
  | stop other time =>
    obtain rfl : other = node := hnode
    obtain rfl := eq_sounding_of_next?_stopped hphase
    cases hphase
    obtain ⟨tone, hentry, hwaveform, hstart, -⟩ := h
    refine ⟨tone.stop time.toFloat, ?_, ?_, hstart, rfl⟩
    · rw [targetOf_signal]
      exact NodeTable.lookup_modifyTone _ hentry
    · rw [waveformOf_signal]
      exact hwaveform
  | tune other hz time =>
    obtain rfl : other = node := hnode
    obtain rfl := eq_sounding_of_next?_tuned hphase
    cases hphase
    obtain ⟨tone, hentry, hwaveform, htimes⟩ := h
    refine ⟨tone.tune hz.toFloat32 time.toFloat, ?_, ?_, htimes⟩
    · rw [targetOf_signal]
      exact NodeTable.lookup_modifyTone _ hentry
    · rw [waveformOf_signal]
      exact hwaveform

/-- A call that mentions the node leads the table on as it leads the phase. -/
theorem Shows.mention (rate : Float32) {role : Role} (hrole : call.role? node = some role)
    (h : phase.Shows node calls (table.lookup node)) (hphase : phase.next? role = some next) :
    next.Shows node (calls ++ [call]) ((table.apply rate call).lookup node) := by
  cases call with
  | newOscillator other waveform =>
    obtain ⟨rfl, rfl⟩ : other = node ∧ Role.madeOscillator = role := by
      simpa [Call.role?] using hrole
    obtain rfl := (isCreation_iff_of_next? hphase).1 rfl
    cases hphase
    exact h.newOscillator rate waveform
  | newEffect other given =>
    obtain ⟨rfl, rfl⟩ : other = node ∧ Role.madeEffect = role := by
      simpa [Call.role?] using hrole
    obtain rfl := (isCreation_iff_of_next? hphase).1 rfl
    cases hphase
    exact h.newEffect rate given
  | wire source target =>
    obtain rfl : Role.wired = role := by
      rw [Call.role?] at hrole
      split at hrole
      · exact Option.some.inj hrole
      · cases hrole
    exact h.wire rate source target hphase
  | signal given =>
    obtain ⟨hnode, rfl⟩ : given.node = node ∧ given.role = role := by
      simpa [Call.role?] using hrole
    exact h.signal rate hnode hphase

end NodePhase

/-- What the calls of a record leave in a table for a node is told by its phase. -/
theorem shows_applyAll (rate : Float32) {node : NodeId} (calls : List Call) {phase : NodePhase}
    (h : phaseOf node calls = some phase) :
    phase.Shows node calls ((NodeTable.applyAll rate calls []).lookup node) := by
  induction calls using List.reverseRecOn generalizing phase with
  | nil =>
    cases h
    exact ⟨rfl, rfl⟩
  | append_singleton calls call ih =>
    rw [phaseOf, history_append, NodePhase.follow?_append] at h
    obtain ⟨before, hbefore, hnext⟩ := Option.bind_eq_some_iff.1 h
    have hhere := ih hbefore
    have hlast : NodeTable.applyAll rate (calls ++ [call]) [] =
        (NodeTable.applyAll rate calls []).apply rate call := List.foldl_append
    rw [hlast]
    cases hrole : call.role? node with
    | none =>
      rw [history, List.filterMap_cons, hrole] at hnext
      cases hnext
      exact hhere.skip rate hrole
    | some role =>
      rw [history, List.filterMap_cons, hrole] at hnext
      obtain ⟨after, hafter, heq⟩ := Option.bind_eq_some_iff.1 hnext
      cases heq
      exact hhere.mention rate hrole hafter

end Chiptune
