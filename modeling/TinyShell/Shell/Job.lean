import TinyShell.Shell.Basic
import TinyShell.Shell.Builtin
import TinyShell.Shell.Child
import TinyShell.Text.Quoted

/-!
# Jobs

Running commands: each program in a child of its own, waited for in turn, or tracked if it is in
the background.
-/

namespace TinyShell

/-- The status of an empty command. -/
def nothingToRun : Status := 1

/-- The status of a command that could not be started. -/
def notStarted : Status := -1

namespace Job

/-- The status of a child, once it has ended. -/
def waitFor (pid : Pid) : Action Status := do
  match ← Action.call (.wait pid) with
  | .ok status => return status
  | .error errno =>
    Action.report .system ("wait for " ++ Text.decimal pid ++ " failed: " ++ errno.text)
    return -1

/-- The status of the last child, once all have ended. -/
def waitForAll (last : Status) : List Pid → Action Status
  | [] => return last
  | pid :: rest => do
    let status ← waitFor pid
    waitForAll status rest

/-- Children that go on in the background, each announced by its number. -/
def track (shell : Shell) : List Pid → Action Shell
  | [] => return shell
  | pid :: rest => do
    display "background notice" ("[" ++ Text.decimal pid ++ "]\n")
    track { shell with background := shell.background ++ [pid] } rest

/-- A child that could not be started. -/
def reportFork (errno : Errno) : Action Unit :=
  Action.report .system ("fork failed: " ++ errno.text)

/-- A program that stands alone. -/
def runProgram (shell : Shell) (command : SimpleCommand) : Action (Status × Shell) := do
  match ← Action.fork (Child.ofCommand command) with
  | .error errno =>
    reportFork errno
    return (notStarted, shell)
  | .ok pid =>
    if command.background then
      return (0, ← track shell [pid])
    else
      return (← waitFor pid, shell)

/-- A simple command: a builtin in this process, or else a program. -/
def runSimple (shell : Shell) (command : SimpleCommand) : Action (Status × Shell) :=
  match command.name? with
  | none => return (nothingToRun, shell)
  | some name => do
    match Builtin.ofName? name with
    | some builtin =>
      Action.log ("builtin: " ++ Text.quoteList command.argv)
      builtin.run shell command.argv
    | none =>
      Action.log ("run: " ++ Text.quoteList command.argv)
      runProgram shell command

/-- So many pipes, or those made before one failed and the reason. -/
def makePipes : Nat → Action (List Pipe × Option Errno)
  | 0 => return ([], none)
  | count + 1 => do
    match ← Action.call .pipe with
    | .error errno => return ([], some errno)
    | .ok pipe =>
      let (pipes, failure) ← makePipes count
      return (pipe :: pipes, failure)

/-- A child for each stage, up to the first that cannot be started; whether there was one. `before`
is the pipe that the first stage reads, `after` are those that the stages write. -/
def spawnStages (pipes : List Pipe) (before : Option Pipe) (after : List Pipe) :
    List SimpleCommand → Action (List Pid × Bool)
  | [] => return ([], false)
  | stage :: rest => do
    match ← Action.fork (Child.ofStage pipes before after.head? stage) with
    | .error errno =>
      reportFork errno
      return ([], true)
    | .ok pid =>
      let (pids, failed) ← spawnStages pipes after.head? after.tail rest
      return (pid :: pids, failed)

/-- The stages of a pipeline between their pipes. This process keeps no end of them, so that each
reader sees the end of its input. -/
def runStages (shell : Shell) (pipeline : Pipeline) (pipes : List Pipe) :
    Action (Status × Shell) := do
  let (pids, failed) ← spawnStages pipes none pipes pipeline.stages
  Child.closePipes pipes
  if pipeline.isBackground && !failed then
    return (0, ← track shell pids)
  else
    let status ← waitForAll 0 pids
    return (if failed then notStarted else status, shell)

/-- A pipeline, with one pipe fewer than it has stages. -/
def runPipeline (shell : Shell) (pipeline : Pipeline) : Action (Status × Shell) := do
  if pipeline.stages.isEmpty then
    return (nothingToRun, shell)
  let (pipes, failure) ← makePipes (pipeline.length - 1)
  match failure with
  | some errno =>
    Action.report .system ("pipe failed: " ++ errno.text)
    Child.closePipes pipes
    return (notStarted, shell)
  | none => runStages shell pipeline pipes

mutual

/-- A command, with its status and the shell after it. -/
def run (shell : Shell) : Command → Action (Status × Shell)
  | .empty _ => return (nothingToRun, shell)
  | .invalid faults => do
    Action.report .user ("invalid command: " ++ faults.text)
    return (notStarted, shell)
  | .simple command => runSimple shell command
  | .pipeline stages => runPipeline shell stages
  | .list entries _ => runEntries shell 0 entries

/-- The entries of a list in order, as long as the shell is to go on. -/
def runEntries (shell : Shell) (last : Status) : List Command → Action (Status × Shell)
  | [] => return (last, shell)
  | entry :: rest => do
    let (status, shell) ← run shell entry
    if shell.running then
      runEntries shell status rest
    else
      return (status, shell)

end

end Job

end TinyShell
