import TinyShell.Proofs.Action.Rules
import TinyShell.Shell.Session

/-!
# Rules for a shell

What the functions of a shell and of its children are put together from, by the rules that a
property of actions has (`Action.Rules`). Each function is gone through once. A class of actions
that has the rules thereby contains what children do (`Child.Rules.body`), any command
(`Shell.Rules.run`) and a whole session (`Shell.Rules.runLoop`).

Waiting for a child and looking at one are parts of their own, since a property can hold of them
for another reason than that it holds of all that could come of the call.
-/

namespace TinyShell

/-! ## Calls -/

/-- The message about a child that could not be waited for. -/
def waitFailure (pid : Pid) (errno : Errno) : String :=
  "wait for " ++ Text.decimal pid ++ " failed: " ++ errno.text

/-- The message is not one about a wait that failed. -/
def NoWaitFailure (level : Level) (message : String) : Prop :=
  ∀ pid errno, level = .system → message ≠ waitFailure pid errno

theorem noWaitFailure_user (message : String) : NoWaitFailure .user message := nofun

theorem noWaitFailure_debug (message : String) : NoWaitFailure .debug message := nofun

theorem noWaitFailure_of_head {level : Level} {message : String}
    (h : message.toList.head? ≠ some 'w') : NoWaitFailure level message := by
  rintro pid errno - rfl
  exact h (by simp [waitFailure])

/-- A call to prepare for a program. -/
def Request.IsPreparation : Request → Prop
  | .duplicate .. | .close _ | .openFile .. => True
  | .report level message => NoWaitFailure level message
  | _ => False

/-- A call of a shell that is about none of its children, and neither reads nor writes. -/
def Request.IsErrand : Request → Prop
  | .pipe | .close _ | .changeDirectory _ | .processId => True
  | .report level message => NoWaitFailure level message
  | _ => False

variable {requests : Request → Prop} {P : {α : Type} → Action α → Prop}

/-! ## Functions that need few of the rules -/

/-- What is left to do for a pipeline once its pipes are closed. -/
def Job.conclude (shell : Shell) (pipeline : Pipeline) (pids : List Pid) (failed : Bool) :
    Action (Status × Shell) := do
  if pipeline.isBackground && !failed then
    return (0, ← track shell pids)
  else
    let status ← waitForAll 0 pids
    return (if failed then notStarted else status, shell)

theorem Job.runStages_eq (shell : Shell) (pipeline : Pipeline) (pipes : List Pipe) :
    runStages shell pipeline pipes = (do
      let made ← spawnStages pipes none pipes pipeline.stages
      Child.closePipes pipes
      conclude shell pipeline made.1 made.2) := rfl

namespace Action.Rules

variable (h : Rules requests P)
include h

theorem closePipes (hr : ∀ fd, requests (.close fd)) (pipes : List Pipe) :
    P (Child.closePipes pipes) := by
  induction pipes with
  | nil => exact h.pure _
  | cons pipe rest ih => exact h.close (hr pipe.readEnd) (h.close (hr pipe.writeEnd) ih)

theorem makePipes (hr : requests .pipe) (count : Nat) : P (Job.makePipes count) := by
  induction count with
  | zero => exact h.pure _
  | succ count ih =>
    refine h.bind (h.call rfl hr) fun reply => ?_
    rcases reply with errno | pipe
    · exact h.pure _
    · exact h.bind ih fun _ => h.pure _

theorem advise (hr : ∀ message, requests (.report .user message)) (faults : List Fault) :
    P (Shell.advise faults) := by
  induction faults with
  | nil => exact h.pure _
  | cons fault rest ih => exact h.bind (h.report (hr _)) fun _ => ih

theorem parseLine (hr : ∀ message, requests (.report .user message)) (shell : Shell)
    (line : String) : P (shell.parseLine line) := by
  refine h.bind (h.log _) fun _ => h.bind (h.log _) fun _ => ?_
  split
  · exact h.pure _
  · exact h.bind (h.advise hr _) fun _ => h.pure _

theorem runBuiltin (hd : ∀ directory, requests (.changeDirectory directory))
    (hr : ∀ message, requests (.report .user message))
    (hx : ∀ status, P (.exit status : Action (Status × Shell))) (shell : Shell)
    (argv : List String) (builtin : Builtin) : P (builtin.run shell argv) := by
  cases builtin with
  | cd =>
    refine h.bind (h.call rfl (hd _)) fun reply => ?_
    rcases reply with errno | _
    · exact h.bind (h.report (hr _)) fun _ => h.pure _
    · exact h.pure _
  | exit => exact h.bind (h.log _) fun _ => hx _
  | quit => exact h.pure _

theorem waitFor {pid : Pid} (hw : requests (.wait pid))
    (hr : ∀ errno, requests (.report .system (waitFailure pid errno))) : P (Job.waitFor pid) := by
  refine h.bind (h.call rfl hw) fun reply => ?_
  rcases reply with errno | status
  · exact h.bind (h.report (hr errno)) fun _ => h.pure _
  · exact h.pure _

theorem waitForAll (hw : ∀ pid, P (Job.waitFor pid)) (last : Status) (pids : List Pid) :
    P (Job.waitForAll last pids) := by
  induction pids generalizing last with
  | nil => exact h.pure _
  | cons pid rest ih => exact h.bind (hw pid) fun status => ih status

theorem poll {pid : Pid} (hl : requests (.tryWait pid))
    (hr : ∀ errno, requests (.report .system (waitFailure pid errno)))
    (hd : ∀ label text, P (display label text)) : P (Shell.poll pid) := by
  refine h.bind (h.call rfl hl) fun reply => ?_
  rcases reply with errno | _ | status
  · cases errno <;> first
      | exact h.pure _
      | exact h.bind (h.report (hr _)) fun _ => h.pure _
  · exact h.pure _
  · exact h.bind (hd _ _) fun _ => h.pure _

theorem pollAll (hl : ∀ pid, P (Shell.poll pid)) (pids : List Pid) : P (Shell.pollAll pids) := by
  induction pids with
  | nil => exact h.pure _
  | cons pid rest ih => exact h.bind (hl pid) fun _ => h.bind ih fun _ => h.pure _

theorem track (hd : ∀ label text, P (display label text)) (shell : Shell) (pids : List Pid) :
    P (Job.track shell pids) := by
  induction pids generalizing shell with
  | nil => exact h.pure _
  | cons pid rest ih => exact h.bind (hd _ _) fun _ => ih _

theorem conclude (hw : ∀ pid, P (Job.waitFor pid)) (hd : ∀ label text, P (display label text))
    (shell : Shell) (pipeline : Pipeline) (pids : List Pid) (failed : Bool) :
    P (Job.conclude shell pipeline pids failed) := by
  unfold Job.conclude
  split
  · exact h.bind (h.track hd shell pids) fun _ => h.pure _
  · exact h.bind (h.waitForAll hw 0 pids) fun _ => h.pure _

end Action.Rules

/-! ## Children -/

namespace Child

/-- What the shell starts as a child: a command with a name, or a stage of a pipeline. -/
inductive Body : Action Status → Prop
  | command {command : SimpleCommand} : command.argv ≠ [] → Body (ofCommand command)
  | stage (pipes : List Pipe) (before after : Option Pipe) (stage : SimpleCommand) :
    Body (ofStage pipes before after stage)

/-- The rules for what a child does. -/
structure Rules (P : {α : Type} → Action α → Prop) : Prop
    extends Action.Rules Request.IsPreparation P where
  exec {program : String} {argv : List String} {next : Errno → Action Status} :
    (∀ errno, P (next errno)) → P (.exec program argv next)

namespace Rules

variable (h : Rules P)
include h

theorem redirect (fd target : Descriptor) : P (Child.redirect fd target) := by
  unfold Child.redirect
  split
  · exact h.pure _
  · refine h.bind (h.call rfl trivial) fun reply => ?_
    rcases reply with errno | _
    · exact h.bind (h.report (noWaitFailure_of_head (by simp))) fun _ => h.pure _
    · exact h.pure _

theorem redirectToFile (source : Descriptor) (path : String) (kind : RedirKind) :
    P (Child.redirectToFile source path kind) := by
  refine h.bind (h.call rfl trivial) fun reply => ?_
  rcases reply with errno | fd
  · exact h.bind (h.report (noWaitFailure_of_head (by simp))) fun _ => h.pure _
  · simp only
    split
    · exact h.pure _
    · refine h.bind (h.redirect fd source) fun result => ?_
      rcases result with status | _
      · exact h.pure _
      · exact h.close trivial (h.pure _)

theorem applyOne (redirection : Redirection) : P (Child.applyOne redirection) := by
  unfold Child.applyOne
  split
  · exact h.redirect ..
  · exact h.redirectToFile ..
  · exact h.bind (h.report (noWaitFailure_debug _)) fun _ => h.pure _

theorem applyAll (redirections : List Redirection) : P (Child.applyAll redirections) := by
  induction redirections with
  | nil => exact h.pure _
  | cons redirection rest ih =>
    refine h.bind (h.applyOne redirection) fun result => ?_
    rcases result with status | _
    · exact h.pure _
    · exact ih

theorem become (command : SimpleCommand) : P (Child.become command) :=
  h.exec fun _ => h.bind (h.report (noWaitFailure_user _)) fun _ => h.pure _

theorem wire (fd : Option Descriptor) (target : Descriptor) : P (Child.wire fd target) := by
  rcases fd with _ | fd
  · exact h.pure _
  · exact h.redirect ..

theorem ofCommand (command : SimpleCommand) : P (Child.ofCommand command) := by
  refine h.bind (h.applyAll _) fun result => ?_
  rcases result with status | _
  · exact h.pure _
  · exact h.become command

theorem ofStage (pipes : List Pipe) (before after : Option Pipe) (stage : SimpleCommand) :
    P (Child.ofStage pipes before after stage) := by
  refine h.bind (h.wire ..) fun result => ?_
  rcases result with status | _
  · exact h.pure _
  refine h.bind (h.wire ..) fun result => ?_
  rcases result with status | _
  · exact h.pure _
  refine h.bind (h.closePipes (fun _ => trivial) pipes) fun _ =>
    h.bind (h.applyAll _) fun result => ?_
  rcases result with status | _
  · exact h.pure _
  · simp only
    split
    · exact h.pure _
    · exact h.become stage

theorem body {child : Action Status} (hb : Body child) : P child := by
  cases hb with
  | command => exact h.ofCommand _
  | stage => exact h.ofStage ..

end Rules

end Child

/-! ## Shells -/

namespace Shell

/-- The rules for what a shell does apart from reading. -/
structure Rules (P : {α : Type} → Action α → Prop) : Prop
    extends Action.Rules Request.IsErrand P where
  exit {α : Type} (status : Status) : P (.exit status : Action α)
  display (label text : String) : P (display label text)
  fork {child : Action Status} : Child.Body child → P (Action.fork child)
  waitFor (pid : Pid) : P (Job.waitFor pid)
  poll (pid : Pid) : P (Shell.poll pid)

namespace Rules

variable (h : Rules P)
include h

theorem reportFork (errno : Errno) : P (Job.reportFork errno) :=
  h.report (noWaitFailure_of_head (by simp))

theorem runProgram (shell : Shell) {command : SimpleCommand} (hne : command.argv ≠ []) :
    P (Job.runProgram shell command) := by
  refine h.bind (h.fork (.command hne)) fun result => ?_
  rcases result with errno | pid
  · exact h.bind (h.reportFork errno) fun _ => h.pure _
  · simp only
    split
    · exact h.bind (h.track h.display shell [pid]) fun _ => h.pure _
    · exact h.bind (h.waitFor pid) fun _ => h.pure _

theorem spawnStages (pipes : List Pipe) (before : Option Pipe) (after : List Pipe)
    (stages : List SimpleCommand) : P (Job.spawnStages pipes before after stages) := by
  induction stages generalizing before after with
  | nil => exact h.pure _
  | cons stage rest ih =>
    refine h.bind (h.fork (.stage ..)) fun result => ?_
    rcases result with errno | pid
    · exact h.bind (h.reportFork errno) fun _ => h.pure _
    · exact h.bind (ih _ _) fun _ => h.pure _

theorem runStages (shell : Shell) (pipeline : Pipeline) (pipes : List Pipe) :
    P (Job.runStages shell pipeline pipes) := by
  rw [Job.runStages_eq]
  exact h.bind (h.spawnStages ..) fun made =>
    h.bind (h.closePipes (fun _ => trivial) pipes) fun _ =>
      h.conclude h.waitFor h.display shell pipeline made.1 made.2

theorem runPipeline (shell : Shell) (pipeline : Pipeline) :
    P (Job.runPipeline shell pipeline) := by
  unfold Job.runPipeline
  split
  · exact h.pure _
  · refine h.bind (h.makePipes trivial _) fun made => ?_
    obtain ⟨pipes, _ | errno⟩ := made
    · exact h.runStages shell pipeline pipes
    · exact h.bind (h.report (noWaitFailure_of_head (by simp))) fun _ =>
        h.bind (h.closePipes (fun _ => trivial) pipes) fun _ => h.pure _

theorem runSimple (shell : Shell) (command : SimpleCommand) :
    P (Job.runSimple shell command) := by
  unfold Job.runSimple
  split
  · exact h.pure _
  · rename_i name hname
    have hne : command.argv ≠ [] := fun hnil => by simp [SimpleCommand.name?, hnil] at hname
    split
    · exact h.bind (h.log _) fun _ =>
        h.runBuiltin (fun _ => trivial) noWaitFailure_user h.exit shell command.argv _
    · exact h.bind (h.log _) fun _ => h.runProgram shell hne

mutual

theorem run (shell : Shell) : (command : Command) → P (Job.run shell command)
  | .empty _ => h.pure _
  | .invalid _ => h.bind (h.report (noWaitFailure_user _)) fun _ => h.pure _
  | .simple command => h.runSimple shell command
  | .pipeline pipeline => h.runPipeline shell pipeline
  | .list entries _ => runEntries shell 0 entries

theorem runEntries (shell : Shell) (last : Status) :
    (entries : List Command) → P (Job.runEntries shell last entries)
  | [] => h.pure _
  | entry :: rest => by
    rw [Job.runEntries]
    refine h.bind (run shell entry) fun result => ?_
    obtain ⟨status, after⟩ := result
    simp only
    split
    · exact runEntries after status rest
    · exact h.pure _

end

theorem reap (shell : Shell) : P shell.reap :=
  h.bind (h.pollAll h.poll shell.background) fun _ => h.pure _

theorem runLine (shell : Shell) (line : String) : P (shell.runLine line) :=
  h.bind (h.log _) fun _ => h.bind (h.parseLine noWaitFailure_user shell line) fun taken =>
    h.bind (h.run taken taken.command) fun _ => h.pure _

variable (hread : ∀ buffer : LineBuffer, P (buffer.read .input))
include hread

theorem getCommand (shell : Shell) : P shell.getCommand := by
  refine h.bind (h.display _ _) fun _ => h.bind (hread _) fun result => ?_
  obtain ⟨_ | _ | errno, line⟩ := result
  · exact h.bind (h.parseLine noWaitFailure_user _ _) fun _ => h.pure _
  · exact h.pure _
  · exact h.bind (h.report (noWaitFailure_of_head (by simp))) fun _ => h.pure _

theorem round (shell : Shell) : P shell.round := by
  refine h.bind (h.reap shell) fun reaped => h.bind (h.getCommand hread reaped) fun result => ?_
  obtain ⟨_ | _, after⟩ := result
  · exact h.pure _
  · exact h.bind (h.run after after.command) fun _ => h.pure _

theorem runLoop (hloop : ∀ {body : Shell → Action (Shell ⊕ Shell)}, (∀ start, P (body start)) →
    ∀ start, P (Action.iterate body start)) (shell : Shell) : P shell.runLoop := by
  refine h.bind (hloop (fun shell => ?_) shell) fun after =>
    h.bind (h.call rfl trivial) fun pid => h.bind (h.display _ _) fun _ => h.pure _
  split
  · exact h.bind (h.round hread shell) fun _ => h.pure _
  · exact h.pure _

end Rules

end Shell

end TinyShell
