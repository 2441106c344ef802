/-
  The ways of sounds.

  A sound that comes to an effect goes on along its wire.  It comes to the destination, or
  to a node where it goes no further, or it goes round in a circle: one of the three, and
  never two of them.  A way that does not go in a circle comes to no node twice, and so it
  is no longer than the table.  Following a sound for one node more than the table has
  is therefore enough.
-/
import Chiptune.Proofs.TableEntries
import Mathlib.Data.List.Nodup

set_option autoImplicit false

namespace Chiptune.NodeTable

/-! ## Ways -/

/-- Where the wire of a node leads. -/
def outputOf (table : NodeTable) (id : NodeId) : Option NodeId :=
  (table.lookup id).bind (·.output)

/-- A sound that comes to a node passes these effects, one after the other, and comes to
another node.  No sound leaves the destination. -/
inductive Way (table : NodeTable) : NodeId → List (NodeId × Effect) → NodeId → Prop where
  | here (id : NodeId) : Way table id [] id
  | on {id next last : NodeId} {effect : Effect} {passed : List (NodeId × Effect)}
      (hid : id ≠ destination) (hnode : table.lookup id = some ⟨.effect effect, some next⟩)
      (hrest : Way table next passed last) : Way table id ((id, effect) :: passed) last

/-- A node where a sound goes no further. -/
inductive DeadEnd (table : NodeTable) (id : NodeId) : Prop where
  | removed (h : table.lookup id = none)
  | oscillator {tone : Oscillator} {output : Option NodeId}
      (h : table.lookup id = some ⟨.oscillator tone, output⟩)
  | unwired {node : SoundNode} (h : table.lookup id = some ⟨node, none⟩)

/-- A sound that comes to a node goes on to one where it goes no further. -/
def Fades (table : NodeTable) (id : NodeId) : Prop :=
  ∃ passed last, Way table id passed last ∧ last ≠ destination ∧ DeadEnd table last

/-- A sound that comes to a node goes on to one to which it comes back. -/
def Circles (table : NodeTable) (id : NodeId) : Prop :=
  ∃ front turn round, Way table id front turn ∧ Way table turn round turn ∧ round ≠ []

/-- What becomes of a sound that passes effects, in their order.  Behind a gain both sides are
multiplied by the level.  Behind a pan the middle of both sides is heard, on the left by the cosine
and on the right by the sine of the angle of the place. -/
def transformed : List (NodeId × Effect) → Stereo → Stereo
  | [], sound => sound
  | (_, ⟨.gain, level⟩) :: passed, sound =>
    transformed passed ⟨sound.left * level, sound.right * level⟩
  | (_, ⟨.pan, place⟩) :: passed, sound =>
    let middle := 0.5 * (sound.left + sound.right)
    transformed passed ⟨middle * (angleOf place).cos, middle * (angleOf place).sin⟩

/-- A sound is transformed by one effect after the other. -/
theorem transformed_cons (id : NodeId) (effect : Effect) (passed : List (NodeId × Effect))
    (sound : Stereo) :
    transformed ((id, effect) :: passed) sound = transformed passed (effect.transform sound) := by
  obtain ⟨setting, value⟩ := effect
  cases setting with
  | gain => rw [transformed, Effect.transform_gain]
  | pan => rw [transformed, Effect.transform_pan]

section

variable {table : NodeTable} {id mid last goal : NodeId} {front passed : List (NodeId × Effect)}

theorem Circles.on {next : NodeId} {effect : Effect} (h : Circles table next)
    (hid : id ≠ destination) (hnode : table.lookup id = some ⟨.effect effect, some next⟩) :
    Circles table id := by
  obtain ⟨front, turn, round, hfront, hround, hne⟩ := h
  exact ⟨_, turn, round, .on hid hnode hfront, hround, hne⟩

theorem Fades.on {next : NodeId} {effect : Effect} (h : Fades table next)
    (hid : id ≠ destination) (hnode : table.lookup id = some ⟨.effect effect, some next⟩) :
    Fades table id := by
  obtain ⟨passed, last, hway, hlast⟩ := h
  exact ⟨_, last, .on hid hnode hway, hlast⟩

/-! ## There is one way only -/

/-- Nothing goes on from a node. -/
def Final (table : NodeTable) (id : NodeId) : Prop := id = destination ∨ DeadEnd table id

theorem Final.eq_nil (hfinal : Final table id) (h : Way table id passed last) :
    passed = [] ∧ last = id := by
  cases h with
  | here _ => exact ⟨rfl, rfl⟩
  | on hid hnode _ =>
    rcases hfinal with rfl | hdead
    · exact absurd rfl hid
    · cases hdead with
      | removed h => rw [h] at hnode; cases hnode
      | oscillator h => rw [h] at hnode; cases hnode
      | unwired h => rw [h] at hnode; cases hnode

/-- A way that ends leads through every node to which the sound comes. -/
theorem Way.split (h : Way table id front mid) (hway : Way table id passed goal)
    (hfinal : Final table goal) : ∃ back, passed = front ++ back ∧ Way table mid back goal := by
  induction h generalizing passed with
  | here _ => exact ⟨passed, rfl, hway⟩
  | @on id next mid effect front hid hnode hrest ih =>
    cases hway with
    | here _ => exact absurd (hfinal.eq_nil (.on hid hnode hrest)).1 (List.cons_ne_nil _ _)
    | on _ hsame hway =>
      rw [hnode] at hsame
      cases hsame
      obtain ⟨back, rfl, hback⟩ := ih hway
      exact ⟨back, rfl, hback⟩

/-- Two ways that end are one and the same. -/
theorem Way.unique (h : Way table id passed last) (hlast : Final table last)
    (hway : Way table id front goal) (hgoal : Final table goal) :
    front = passed ∧ goal = last := by
  obtain ⟨back, rfl, hback⟩ := h.split hway hgoal
  obtain ⟨rfl, rfl⟩ := hlast.eq_nil hback
  exact ⟨List.append_nil _, rfl⟩

/-- A way that ends does not go in a circle. -/
theorem Way.not_circles (h : Way table id passed goal) (hfinal : Final table goal) :
    ¬ Circles table id := by
  rintro ⟨front, turn, round, hfront, hround, hne⟩
  obtain ⟨back, -, hback⟩ := hfront.split h hfinal
  obtain ⟨again, hsplit, hagain⟩ := hround.split hback hfinal
  -- the way back to the turn would be followed by the whole of the way that follows the turn
  obtain ⟨rfl, -⟩ := hback.unique hfinal hagain hfinal
  exact hne (List.self_eq_append_left.1 hsplit)

theorem Way.not_fades (h : Way table id passed destination) : ¬ Fades table id := by
  rintro ⟨front, last, hway, hlast, hdead⟩
  exact hlast (h.unique (.inl rfl) hway (.inr hdead)).2

/-! ## Ways are short -/

/-- To a node that has been passed there is a way. -/
theorem Way.exists_front (h : Way table id passed last) (hmem : mid ∈ passed.map (·.1)) :
    ∃ front, Way table id front mid := by
  induction h with
  | here _ => cases hmem
  | @on id _ _ _ _ hid hnode _ ih =>
    rcases List.mem_cons.1 hmem with rfl | hmem
    · exact ⟨[], .here mid⟩
    · obtain ⟨front, hfront⟩ := ih hmem
      exact ⟨_, .on hid hnode hfront⟩

/-- No node is passed twice, unless the way goes in a circle. -/
theorem Way.nodup_or_circles (h : Way table id passed last) :
    (passed.map (·.1)).Nodup ∨ Circles table id := by
  induction h with
  | here _ => exact .inl List.nodup_nil
  | @on id _ _ _ passed hid hnode hrest ih =>
    rcases ih with hnodup | hcircles
    · by_cases hmem : id ∈ passed.map (·.1)
      · obtain ⟨front, hfront⟩ := hrest.exists_front hmem
        exact .inr ⟨[], id, _, .here id, .on hid hnode hfront, List.cons_ne_nil _ _⟩
      · exact .inl (List.nodup_cons.2 ⟨hmem, hnodup⟩)
    · exact .inr (hcircles.on hid hnode)

theorem Way.passed_subset (h : Way table id passed last) : passed.map (·.1) ⊆ table.ids := by
  induction h with
  | here _ => exact List.nil_subset _
  | on hid hnode _ ih =>
    refine List.cons_subset.2 ⟨mem_ids_iff.2 ?_, ih⟩
    rw [hnode]
    rfl

/-- A way that passes more nodes than there are goes in a circle. -/
theorem Way.circles_of_lt (h : Way table id passed last) (hlong : table.length < passed.length) :
    Circles table id := by
  refine h.nodup_or_circles.resolve_left fun hnodup => ?_
  have hle := hnodup.length_le_of_subset h.passed_subset
  rw [List.length_map, ids, List.length_map] at hle
  omega

/-! ## Following a sound -/

/-- A sound that is followed comes to the destination, or goes no further, or is still on
its way at the end. -/
theorem follow_cases (table : NodeTable) (fuel : Nat) (id : NodeId) (sound : Stereo) :
    (∃ passed, Way table id passed destination ∧
        table.follow fuel id sound = some (transformed passed sound)) ∨
      table.follow fuel id sound = none ∧
        (Fades table id ∨ ∃ passed last, Way table id passed last ∧ passed.length = fuel) := by
  induction fuel generalizing id sound with
  | zero => exact .inr ⟨rfl, .inr ⟨[], id, .here id, rfl⟩⟩
  | succ fuel ih =>
    by_cases hid : id = destination
    · subst hid
      exact .inl ⟨[], .here _, by rw [follow, if_pos rfl]; rfl⟩
    · have hdead : DeadEnd table id → Fades table id := fun h => ⟨[], id, .here id, hid, h⟩
      rw [follow, if_neg hid]
      cases hnode : table.lookup id with
      | none => exact .inr ⟨rfl, .inl (hdead (.removed hnode))⟩
      | some wired =>
        obtain ⟨node, output⟩ := wired
        cases node with
        | oscillator tone => exact .inr ⟨rfl, .inl (hdead (.oscillator hnode))⟩
        | effect effect =>
          cases output with
          | none => exact .inr ⟨rfl, .inl (hdead (.unwired hnode))⟩
          | some next =>
            rcases ih next (effect.transform sound) with ⟨passed, hway, heq⟩ | ⟨heq, hlost⟩
            · exact .inl ⟨_, .on hid hnode hway, heq.trans (by rw [transformed_cons])⟩
            · refine .inr ⟨heq, ?_⟩
              rcases hlost with hfades | ⟨passed, last, hway, hlength⟩
              · exact .inl (hfades.on hid hnode)
              · exact .inr ⟨_, last, .on hid hnode hway, congrArg (· + 1) hlength⟩

/-- One node more than there are is enough. -/
theorem follow_enough (table : NodeTable) (id : NodeId) (sound : Stereo) :
    (∃ passed, Way table id passed destination ∧
        table.follow (table.length + 1) id sound = some (transformed passed sound)) ∨
      table.follow (table.length + 1) id sound = none ∧ (Fades table id ∨ Circles table id) := by
  rcases table.follow_cases (table.length + 1) id sound with hheard | ⟨hnone, hfades | hlong⟩
  · exact .inl hheard
  · exact .inr ⟨hnone, .inl hfades⟩
  · obtain ⟨passed, last, hway, hlength⟩ := hlong
    exact .inr ⟨hnone, .inr (hway.circles_of_lt (by omega))⟩

theorem follow_eq_some_iff {sound heard : Stereo} :
    table.follow (table.length + 1) id sound = some heard ↔
      ∃ passed, Way table id passed destination ∧ heard = transformed passed sound := by
  rcases table.follow_enough id sound with ⟨passed, hway, heq⟩ | ⟨hnone, hlost⟩
  · rw [heq]
    constructor
    · intro h
      exact ⟨passed, hway, (Option.some.inj h).symm⟩
    · rintro ⟨other, hother, rfl⟩
      rw [(hway.unique (.inl rfl) hother (.inl rfl)).1]
  · rw [hnone]
    constructor
    · intro h
      cases h
    · rintro ⟨passed, hway, -⟩
      exact absurd hlost (not_or.2 ⟨hway.not_fades, hway.not_circles (.inl rfl)⟩)

theorem follow_eq_none_iff {sound : Stereo} :
    table.follow (table.length + 1) id sound = none ↔ Fades table id ∨ Circles table id := by
  rcases table.follow_enough id sound with ⟨passed, hway, heq⟩ | ⟨hnone, hlost⟩
  · rw [heq]
    constructor
    · intro h
      cases h
    · intro hlost
      exact absurd hlost (not_or.2 ⟨hway.not_fades, hway.not_circles (.inl rfl)⟩)
  · exact ⟨fun _ => hlost, fun _ => hnone⟩

end

/-! ## Routes -/

/-- The sound of a node comes to the destination, and passes these effects on the way. -/
def Reaches (table : NodeTable) (source : NodeId) (passed : List (NodeId × Effect)) : Prop :=
  ∃ first, table.outputOf source = some first ∧ Way table first passed destination

theorem route_eq (table : NodeTable) (source : NodeId) (sample : Float32) :
    table.route source sample = (table.outputOf source).bind fun first =>
      table.follow (table.length + 1) first ⟨sample, sample⟩ := by
  rw [outputOf, Option.bind_assoc]
  rfl

theorem route_eq_some_iff {table : NodeTable} {source : NodeId} {sample : Float32}
    {heard : Stereo} : table.route source sample = some heard ↔
      ∃ passed, table.Reaches source passed ∧ heard = transformed passed ⟨sample, sample⟩ := by
  rw [route_eq]
  cases houtput : table.outputOf source with
  | none => simp [Reaches, houtput]
  | some first => simp [Reaches, houtput, follow_eq_some_iff]

/-- **A sound is heard wherever wires lead it to the destination**, however long its way is, and
it is heard as the gains and pans on its way make it, in their order.  Otherwise its node has
no wire, or the way ends at a node that is removed, has no wire or is an oscillator, or
it goes in a circle. -/
theorem route_of_wires (table : NodeTable) (source : NodeId) (sample : Float32) :
    (∀ heard, table.route source sample = some heard ↔
      ∃ passed, table.Reaches source passed ∧ heard = transformed passed ⟨sample, sample⟩) ∧
    (table.route source sample = none ↔ table.outputOf source = none ∨
      ∃ first, table.outputOf source = some first ∧ (Fades table first ∨ Circles table first)) := by
  refine ⟨fun heard => route_eq_some_iff, ?_⟩
  rw [route_eq]
  cases houtput : table.outputOf source with
  | none => simp
  | some first => simp [follow_eq_none_iff]

/-- A sound behind a gain and a pan. -/
example :
    let table : NodeTable := [(1, ⟨.oscillator (.silent .square 1000), some 2⟩),
      (2, ⟨.effect ⟨.gain, 0.5⟩, some 3⟩), (3, ⟨.effect ⟨.pan, 2⟩, some destination⟩)]
    table.route 1 1 = some ⟨0.5 * quarterTurn.cos, 0.5 * quarterTurn.sin⟩ := by
  rfl

end Chiptune.NodeTable
