/-
  Runs of an engine over any graph.

  Between two requests the host of a graph may do with it whatever it likes: the clock goes
  on, and calls that were accepted are refused from now on.  What is told of each turn of
  a run is told of the whole run in order.
-/
import Chiptune.Proofs.Sessions

set_option autoImplicit false

namespace Chiptune.Engine

open AudioGraph

/-- What happens to an engine: it is asked for something, or its host does something to
the graph. -/
inductive Turn (G : Type) where
  | ask (request : Request)
  | host (change : G → G)

variable {G α : Type} [AudioGraph G]

/-- Takes one turn. -/
def take (turn : Turn G) (engine : Engine G) : Answer × Engine G :=
  match turn with
  | .ask request => engine.serve request
  | .host change => (.done, { engine with graph := change engine.graph })

/-- Takes one turn after the other. -/
def afterTurns (turns : List (Turn G)) (engine : Engine G) : Engine G :=
  turns.foldl (fun engine turn => (engine.take turn).2) engine

/-- What is told of each turn, told of a run in order. -/
def gather (tell : Turn G → Engine G → List α) : List (Turn G) → Engine G → List α
  | [], _ => []
  | turn :: turns, engine => tell turn engine ++ gather tell turns (engine.take turn).2

variable {tell : Turn G → Engine G → List α} {engine : Engine G}

@[simp] theorem afterTurns_nil (engine : Engine G) : engine.afterTurns [] = engine := rfl

@[simp] theorem afterTurns_cons (turn : Turn G) (turns : List (Turn G)) (engine : Engine G) :
    engine.afterTurns (turn :: turns) = (engine.take turn).2.afterTurns turns := rfl

@[simp] theorem afterTurns_append (first second : List (Turn G)) (engine : Engine G) :
    engine.afterTurns (first ++ second) = (engine.afterTurns first).afterTurns second :=
  List.foldl_append

@[simp] theorem gather_nil (tell : Turn G → Engine G → List α) (engine : Engine G) :
    engine.gather tell [] = [] := rfl

@[simp] theorem gather_cons (tell : Turn G → Engine G → List α) (turn : Turn G)
    (turns : List (Turn G)) (engine : Engine G) :
    engine.gather tell (turn :: turns) =
      tell turn engine ++ (engine.take turn).2.gather tell turns := rfl

/-- A run may be told in two portions. -/
theorem gather_append (tell : Turn G → Engine G → List α) (first second : List (Turn G))
    (engine : Engine G) :
    engine.gather tell (first ++ second) =
      engine.gather tell first ++ (engine.afterTurns first).gather tell second := by
  induction first generalizing engine with
  | nil => rfl
  | cons turn first ih => simp [ih]

theorem accounted_take (turn : Turn G) (h : engine.Accounted) :
    (engine.take turn).2.Accounted := by
  cases turn with
  | ask request => exact accounted_serve h request
  | host change => exact ⟨h.coherent, h.idle, h.busy⟩

/-- The account is kept over any graph. -/
theorem accounted_afterTurns (turns : List (Turn G)) (h : engine.Accounted) :
    (engine.afterTurns turns).Accounted := by
  induction turns generalizing engine with
  | nil => exact h
  | cons turn turns ih => exact ih (accounted_take turn h)

/-! ## Runs over a recorder -/

/-- An event as a turn. -/
def Event.turn : Event → Turn Recorder
  | ask request => .ask request
  | host change => .host change.apply

theorem happen_eq_take (event : Event) (engine : Engine Recorder) :
    engine.happen event = engine.take event.turn := by
  cases event <;> rfl

theorem after_eq_afterTurns (events : List Event) (engine : Engine Recorder) :
    engine.after events = engine.afterTurns (events.map Event.turn) := by
  induction events generalizing engine with
  | nil => rfl
  | cons event events ih => simp [ih, happen_eq_take]

end Chiptune.Engine
