import TinyShell.Machine.Sh.Builtin.Control
import TinyShell.Machine.Sh.Builtin.Directory
import TinyShell.Machine.Sh.Builtin.Print
import TinyShell.Machine.Sh.Builtin.Processes
import TinyShell.Machine.Sh.Builtin.Test
import TinyShell.Machine.Sh.Builtin.Variables

/-!
# Running built-in commands

The built-in commands by name, and what is around every one of them: its output goes out when it
is over.
-/

namespace TinyShell.Machine.Sh

/-- The status of a built-in command. -/
def builtin (evaluate : Evaluate) (mode : Mode) (name : String) (args : List String) : Sh Nat :=
  match name with
  | "." => Builtin.includeFile evaluate args
  | ":" | "true" => pure 0
  | "false" => pure 1
  | "[" | "test" => Builtin.test name args
  | "alias" => Builtin.aliasWords args
  | "break" => Builtin.leaveLoops false args
  | "cd" | "chdir" => Builtin.cd args
  | "command" => Builtin.command args
  | "continue" => Builtin.leaveLoops true args
  | "echo" => Builtin.echo args
  | "eval" => Builtin.eval evaluate mode args
  | "exec" => Builtin.exec args
  | "exit" => Builtin.exit args
  | "export" | "readonly" => Builtin.mark name args
  | "getopts" => Builtin.getopts args
  | "hash" => Builtin.hash args
  | "jobs" => Builtin.listJobs args
  | "kill" => Builtin.kill args
  | "local" => Builtin.localVariables args
  | "printf" => Builtin.printf args
  | "pwd" => Builtin.pwd args
  | "read" => Builtin.read args
  | "return" => Builtin.returnWith args
  | "set" => Builtin.setAll args
  | "shift" => Builtin.shift args
  | "times" => Builtin.times
  | "trap" => Builtin.trap args
  | "type" => Builtin.type args
  | "ulimit" => Builtin.ulimit args
  | "umask" => Builtin.umask args
  | "unalias" => Builtin.unaliasWords args
  | "unset" => Builtin.unsetNames args
  | "wait" => Builtin.wait args
  | _ => Builtin.resume args

/-- A built-in command from start to end. -/
def runBuiltin (evaluate : Evaluate) (mode : Mode) (name : String) (args : List String) :
    Sh Unit := do
  let outer ← get
  set { outer with command := some name }
  let result ← attempt do
    let status ← builtin evaluate mode name args
    let arrived ← flush
    unless arrived do
      complain (name ++ ": I/O error")
    modify fun env => { env with status := if arrived then status else status ||| 1 }
  modify fun env =>
    { env with command := outer.command, output := [], documents := outer.documents }
  match result with
  | .ok () => return ()
  | .error leave => throw leave

end TinyShell.Machine.Sh
