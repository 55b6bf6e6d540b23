import TinyShell.Command.Dump
import TinyShell.Shell.Job

/-!
# Sessions

The life of a shell: it prompts, reads a line, runs it, and collects what has ended in the
background, until it is told to stop or its input is over. A single line can be run without any of
that.
-/

namespace TinyShell.Shell

/-- The faults of a line as advice, one message for each. -/
def advise : List Fault → Action Unit
  | [] => return ()
  | fault :: rest => do
    Action.report .user fault.text
    advise rest

/-- A line becomes the shell's tokens and command. Faults of a command that can run are reported;
one that cannot is reported when it is refused. -/
def parseLine (shell : Shell) (line : String) : Action Shell := do
  let tokens := TokenList.ofLine line
  Action.log tokens.dump
  let command := Command.parse tokens
  Action.log command.dump
  unless command.isInvalid do
    advise command.faults.toList
  return { shell with tokens, command }

/-- The next command, and whether there was one. At the end of input the shell stops; if reading
failed it also has a status to show for it. -/
def getCommand (shell : Shell) : Action (Bool × Shell) := do
  display "prompt" shell.prompt
  let (status, line) ← shell.line.read .input
  let shell := { shell with line }
  match status with
  | .line _ => return (true, ← shell.parseLine line.text)
  | .endOfInput => return (false, { shell with running := false })
  | .failed errno =>
    Action.report .system ("read failed: " ++ errno.text)
    return (false, { shell with running := false, lastStatus := 1 })

/-- One look at a child in the background: whether it is still to be tracked. -/
def poll (pid : Pid) : Action Bool := do
  match ← Action.call (.tryWait pid) with
  | .ok (some status) =>
    display "reap notice" ("[" ++ Text.decimal pid ++ "] Done " ++ Text.decimal status ++ "\n")
    return false
  | .ok none => return true
  | .error .echild => return false
  | .error errno =>
    Action.report .system ("wait for " ++ Text.decimal pid ++ " failed: " ++ errno.text)
    return false

/-- One look at each; the children that are still to be tracked. -/
def pollAll : List Pid → Action (List Pid)
  | [] => return []
  | pid :: rest => do
    let tracked ← poll pid
    let others ← pollAll rest
    return if tracked then pid :: others else others

/-- Collects the children in the background that have ended. -/
def reap (shell : Shell) : Action Shell := do
  return { shell with background := ← pollAll shell.background }

/-- One round: collect, read, run. -/
def round (shell : Shell) : Action Shell := do
  let shell ← shell.reap
  let (ready, shell) ← shell.getCommand
  if ready then
    return (← Job.run shell shell.command).2
  else
    return shell

/-- Rounds until the shell is to stop, and a farewell. -/
def runLoop (shell : Shell) : Action (Status × Shell) := do
  let shell ← Action.iterate (fun shell : Shell => do
    if shell.running then return .inl (← shell.round) else return .inr shell) shell
  let pid ← Action.call .processId
  display "farewell" (shell.name ++ " (" ++ Text.decimal pid ++ ") was terminated\n")
  return (shell.lastStatus, shell)

/-- The status of the process after a single line: that of `quit`, nothing for an empty line, and
failure in place of a negative status. -/
def lineStatus (shell : Shell) (empty : Bool) (status : Status) : Status :=
  if !shell.running then shell.lastStatus
  else if empty then 0
  else if status < 0 then 1
  else status

/-- A single line. -/
def runLine (shell : Shell) (line : String) : Action (Status × Shell) := do
  Action.log ("run line: " ++ Text.quote line)
  let shell ← shell.parseLine line
  let (status, after) ← Job.run shell shell.command
  return (lineStatus after shell.command.isEmpty status, after)

end TinyShell.Shell
