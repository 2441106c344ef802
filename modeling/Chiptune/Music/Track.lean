/-
  Tracks: the parts that are played together.
-/
set_option autoImplicit false

namespace Chiptune

/-- Parts in notation, with the tempo they share. -/
structure Track where
  /-- Beats per minute. -/
  bpm : Float
  /-- Whether every part begins again when it has ended. -/
  looping : Bool
  parts : List String
  deriving DecidableEq

instance : Inhabited Track := ⟨⟨0, false, []⟩⟩

end Chiptune
