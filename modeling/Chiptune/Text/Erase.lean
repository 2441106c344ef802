/-
  Lines in which something was rubbed out while they were typed.

  A backspace takes away the cluster before it that is still there.  The lengths of the
  clusters are kept in bytes of eight bits: of a cluster of 256 bytes or more a backspace
  takes as many bytes from the end as the length has above a multiple of 256.
-/
import Chiptune.Text.Cluster

set_option autoImplicit false

namespace Chiptune.Text

/-- The backspace. -/
def backspace : Char := '\x08'

/-- A text with its end first, and the lengths of its clusters, the last one first. -/
structure Typed where
  backwards : List Char
  lengths : List Nat
  deriving DecidableEq, Repr, Inhabited

namespace Typed

/-- Takes whole characters away, as many as fit into a number of bytes. -/
def dropBytes : Nat → List Char → List Char
  | _, [] => []
  | bytes, c :: cs => if c.utf8Size ≤ bytes then dropBytes (bytes - c.utf8Size) cs else c :: cs

/-- Types a cluster, or rubs one out. -/
def enter (typed : Typed) (cluster : List Char) : Typed :=
  if cluster = [backspace] then
    match typed.lengths with
    | [] => typed
    | length :: lengths => ⟨dropBytes length typed.backwards, lengths⟩
  else
    let bytes := (String.ofList cluster).utf8ByteSize
    ⟨cluster.reverse ++ typed.backwards, bytes % 256 :: typed.lengths⟩

end Typed

/-- The line that is left when its backspaces have done their work. -/
def erase (line : String) : String :=
  let typed := (clusters line.toList).foldl Typed.enter ⟨[], []⟩
  String.ofList typed.backwards.reverse

/-- A line of one cluster and a backspace is empty. -/
example : erase "é\x08" = "" := by decide +kernel

end Chiptune.Text
