/-
  Commands by the words they begin with.

  A line asks for a command when it is the command's words, or begins with them and
  a space; what follows is the argument.  Of several such commands the one with the
  longest words is meant, and of two with the same words the one entered first.
-/
import Chiptune.Text.Blank

set_option autoImplicit false

namespace Chiptune.Console

/-- Handlers by their words, the longest first. -/
structure Registry (H : Type) where
  entries : List (String × H)

namespace Registry

variable {H : Type}

/-- The registry without commands. -/
def empty : Registry H := ⟨[]⟩

instance : Inhabited (Registry H) := ⟨empty⟩

/-- Puts an entry behind those that are at least as long in bytes. -/
def place (entry : String × H) : List (String × H) → List (String × H)
  | [] => [entry]
  | other :: others =>
    if other.1.utf8ByteSize < entry.1.utf8ByteSize then entry :: other :: others
    else other :: place entry others

/-- Enters a command. -/
def register (words : String) (handler : H) (registry : Registry H) : Registry H :=
  ⟨place (words, handler) registry.entries⟩

/-- Enters commands in order. -/
def registerAll (commands : List (String × H)) (registry : Registry H) : Registry H :=
  commands.foldl (fun registry (words, handler) => registry.register words handler) registry

/-- The argument a line gives to a command, if it asks for it. -/
def argument? (words line : String) : Option String :=
  if line = words then some ""
  else if (words.toList ++ [' ']).isPrefixOf line.toList then
    some (Text.trim (String.ofList (line.toList.drop words.toList.length)))
  else none

/-- The command a line asks for, with its argument. -/
def find? (line : String) (registry : Registry H) : Option (H × String) :=
  registry.entries.findSome? fun (words, handler) =>
    (argument? words line).map fun argument => (handler, argument)

/-- The words of the commands, the longest first. -/
def list (registry : Registry H) : List String := registry.entries.map (·.1)

end Registry

end Chiptune.Console
