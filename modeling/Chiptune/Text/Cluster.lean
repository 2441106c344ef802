/-
  The characters that a reader sees.

  A text is cut into clusters: between two code points there is a boundary unless they
  go together.  Whether they do is seen from their classes and from a little of what
  stands before them in the cluster.
-/
import Chiptune.Text.BreakClass

set_option autoImplicit false

namespace Chiptune.Text

/-- What a picture is followed by in a cluster. -/
inductive PictureState where
  | none
  /-- A picture, and perhaps characters that extend it. -/
  | drawn
  /-- The same and a joiner. -/
  | joined
  deriving DecidableEq, Repr, Inhabited

/-- What a consonant is followed by in a cluster. -/
inductive ConsonantState where
  | none
  /-- A consonant, and perhaps characters that extend it. -/
  | alone
  /-- The same with a linker among them. -/
  | linked
  deriving DecidableEq, Repr, Inhabited

/-- What stands before a place in a text, as far as boundaries depend on it. -/
structure Preceding where
  last : BreakClass
  picture : PictureState
  consonant : ConsonantState
  /-- Whether the letter of a flag waits for the other one. -/
  halfFlag : Bool
  deriving DecidableEq, Repr, Inhabited

namespace Preceding

/-- What becomes of a picture. -/
def nextPicture (state : PictureState) (cls : BreakClass) : PictureState :=
  match cls, state with
  | .picture, _ => .drawn
  | .extend, .drawn => .drawn
  | .joiner, .drawn => .joined
  | _, _ => .none

/-- What becomes of a consonant. -/
def nextConsonant (state : ConsonantState) (c : Char) (cls : BreakClass) : ConsonantState :=
  if isConsonant c then .alone
  else if state = .none then .none
  else if isLinker c then .linked
  else if (cls = .extend && c != zeroWidthNonJoiner) || cls = .joiner then state
  else .none

/-- One character further. -/
def next (before : Preceding) (c : Char) : Preceding :=
  let cls := breakClass c
  { last := cls
    picture := nextPicture before.picture cls
    consonant := nextConsonant before.consonant c cls
    halfFlag := cls = .regional && !before.halfFlag }

/-- What a text begins with. -/
def first (c : Char) : Preceding := next ⟨.control, .none, .none, false⟩ c

end Preceding

/-- Whether nothing goes together with what is beside it, but for the end of a line. -/
def BreakClass.standsAlone : BreakClass → Bool
  | control | carriageReturn | lineFeed => true
  | _ => false

/-- Whether the parts of a syllable of Hangul go together. -/
def BreakClass.makesSyllable : (first second : BreakClass) → Bool
  | .hangulInitial, .hangulInitial | .hangulInitial, .hangulVowel => true
  | .hangulInitial, .hangulOpen | .hangulInitial, .hangulClosed => true
  | .hangulOpen, .hangulVowel | .hangulOpen, .hangulFinal => true
  | .hangulVowel, .hangulVowel | .hangulVowel, .hangulFinal => true
  | .hangulClosed, .hangulFinal | .hangulFinal, .hangulFinal => true
  | _, _ => false

/-- Whether a character goes together with what stands before it. -/
def Preceding.holdsOn (before : Preceding) (c : Char) : Bool :=
  let cls := breakClass c
  if before.last = .carriageReturn && cls = .lineFeed then true
  else if before.last.standsAlone || cls.standsAlone then false
  else
    before.last.makesSyllable cls ||
      cls = .extend || cls = .joiner || cls = .spacing || before.last = .leading ||
      (isConsonant c && before.consonant = .linked) ||
      (cls = .picture && before.picture = .joined) ||
      (cls = .regional && before.halfFlag)

/-- The clusters of what is left behind a place, with what the cluster at the place has
of it first. -/
def clustersFrom (before : Preceding) : List Char → List Char × List (List Char)
  | [] => ([], [])
  | c :: rest =>
    let (here, others) := clustersFrom (before.next c) rest
    if before.holdsOn c then (c :: here, others) else ([], (c :: here) :: others)

/-- The clusters of a text. -/
def clusters : List Char → List (List Char)
  | [] => []
  | c :: rest =>
    let (here, others) := clustersFrom (.first c) rest
    (c :: here) :: others

/-- Nothing of a text is lost in its clusters. -/
theorem clustersFrom_flatten (before : Preceding) (cs : List Char) :
    (clustersFrom before cs).1 ++ (clustersFrom before cs).2.flatten = cs := by
  induction cs generalizing before with
  | nil => rfl
  | cons c rest ih =>
    have rest := ih (before.next c)
    simp only [clustersFrom]
    split <;> simp [rest]

/-- The clusters of a text make up the text. -/
theorem clusters_flatten (cs : List Char) : (clusters cs).flatten = cs := by
  cases cs with
  | nil => rfl
  | cons c rest => simp [clusters, clustersFrom_flatten]

/-- A letter and its accent are one cluster. -/
example : clusters ['e', '\u0301', 'e'] = [['e', '\u0301'], ['e']] := by decide +kernel

/-- The two letters of a flag are one cluster, a third one begins another. -/
example : clusters ['🇩', '🇪', '🇩'] = [['🇩', '🇪'], ['🇩']] := by decide +kernel

end Chiptune.Text
