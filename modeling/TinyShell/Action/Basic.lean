import TinyShell.Action.Request
import TinyShell.Behavior

/-!
# Actions

What the shell and its children do before they become other programs: behaviors that make the
requests of `Request`.
-/

namespace TinyShell

/-- A behavior that makes requests. -/
abbrev Action := Behavior Request.Reply

namespace Action

/-- A request alone. -/
def call (request : Request) : Action request.Reply := .ask request .done

/-- A child process alone. -/
def fork (child : Action Status) : Action (Except Errno Pid) := .spawn child .done

/-- A line for the journal alone. -/
def log (text : String) : Action Unit := .note text (.done ())

/-- A message to the user or the maintainer. -/
def report (level : Level) (message : String) : Action Unit := call (.report level message)

/-- `body` until it answers with a result. -/
def iterate {σ β : Type} (body : σ → Action (σ ⊕ β)) (start : σ) : Action β :=
  Behavior.iterate body start

end Action

end TinyShell
