import TinyShell.Action.Basic
import TinyShell.Command.Parser
import TinyShell.Shell.Line

/-!
# The shell

What a shell remembers from line to line.
-/

namespace TinyShell

/-- The state of a shell. -/
structure Shell where
  name : String := "tsh"
  prompt : String := "tsh> "
  /-- Whether there is a next line to run. -/
  running : Bool := true
  /-- The status to end with. -/
  lastStatus : Status := 0
  line : LineBuffer := .empty
  tokens : TokenList := .empty
  command : Command := .empty ∅
  /-- The children in the background that have not been collected, in the order of their start. -/
  background : List Pid := []

instance : Inhabited Shell := ⟨{}⟩

end TinyShell
