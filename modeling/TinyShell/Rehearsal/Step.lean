import TinyShell.Rehearsal.Recorder
import TinyShell.Rehearsal.Script
import TinyShell.Shell.Session

/-!
# Rehearsals

A shell and a stand-in are taken through steps, one function of the shell or one call at a time,
and each step is reported with what it added to the record.
-/

namespace TinyShell.Rehearsal

/-- A stand-in for an operating system, with what can be seen of its state. -/
structure Double (σ : Type) where
  host : Host σ
  record : σ → Record
  /-- How many items of input nobody has read. -/
  unread : σ → Nat

def recorder : Double Recorder := ⟨Recorder.host, Recorder.record, (·.input.length)⟩

def script : Double Script := ⟨Script.host, Script.record, (·.input.length)⟩

/-- The rounds that a loop may take. The input and the planned outcomes of any rehearsal are far
fewer. -/
def patience : Nat := 0x1000000000000000

/-! ## Bare calls -/

/-- A call made without the shell. -/
inductive Call where
  | ask (request : Request)
  | exec (program : String) (argv : List String)
  /-- A child that makes these calls and then ends with the status. -/
  | spawn (body : List Call) (status : Status)

/-- What came of a call. -/
inductive Answer where
  | replied (request : Request) (reply : request.Reply)
  /-- The reason why no program took over; without a reason if one did, since in a rehearsal the
  process that was left goes on. -/
  | execReturned (errno : Errno)
  | spawned (result : Except Errno Pid) (body : List Answer)

mutual

/-- One call. -/
def perform {σ : Type} (host : Host σ) (state : σ) : Call → Answer × σ
  | .ask request =>
    let (reply, state) := host.answer request state
    (.replied request reply, state)
  | .exec program argv =>
    match host.exec program argv state with
    | (.ok _, state) => (.execReturned .unknown, state)
    | (.error errno, state) => (.execReturned errno, state)
  | .spawn body status =>
    match host.fork state with
    | (.error errno, state) => (.spawned (.error errno) [], state)
    | (.ok pid, state) =>
      let (answers, child) := performAll host state body
      (.spawned (.ok pid) answers, host.join state child pid status)

/-- Calls in order. -/
def performAll {σ : Type} (host : Host σ) (state : σ) : List Call → List Answer × σ
  | [] => ([], state)
  | call :: rest =>
    let (answer, state) := perform host state call
    let (answers, state) := performAll host state rest
    (answer :: answers, state)

end

/-! ## Steps -/

/-- A step of a rehearsal. -/
inductive Step (σ : Type) where
  | runLine (line : String)
  | runLoop
  | getCommand
  | parseLine (line : String)
  | runCommand (command : Command)
  | reap
  | readLine
  | clearLine
  | builtin (name : String) (argv : List String)
  | writeText (fd : Descriptor) (text : String)
  | call (call : Call)
  /-- The shell and the stand-in are changed by hand. -/
  | change (shell : Shell → Shell) (double : σ → σ)

/-- What a step answers. -/
inductive Result where
  | nothing
  | status (status : Status)
  | flag (flag : Bool)
  | line (status : LineStatus) (buffer : LineBuffer)
  | count (count : Nat)
  | notBuiltin
  | written (result : Except Errno Unit)
  | answer (answer : Answer)

/-- What a step does through the shell, with its result and the shell after it. -/
def Step.action {σ : Type} (shell : Shell) : Step σ → Action (Result × Shell)
  | .runLine line => do
    let (status, shell) ← shell.runLine line
    return (.status status, shell)
  | .runLoop => do
    let (status, shell) ← shell.runLoop
    return (.status status, shell)
  | .getCommand => do
    let (ready, shell) ← shell.getCommand
    return (.flag ready, shell)
  | .parseLine line => do
    let shell ← shell.parseLine line
    return (.nothing, shell)
  | .runCommand command => do
    let (status, shell) ← Job.run shell command
    return (.status status, shell)
  | .reap => do
    let shell ← shell.reap
    return (.nothing, shell)
  | .readLine => do
    let (status, line) ← shell.line.read .input
    return (.line status line, { shell with line })
  | .clearLine =>
    let line := shell.line.clear
    return (.count line.length, { shell with line })
  | .builtin name argv =>
    match Builtin.ofName? name with
    | none => return (.notBuiltin, shell)
    | some command => do
      let (status, shell) ← command.run shell argv
      return (.status status, shell)
  | .writeText fd text => do
    let result ← TinyShell.writeText fd text
    return (.written result, shell)
  | .call _ | .change .. => return (.nothing, shell)

/-- The report of a step. -/
structure Entry where
  added : Record
  unread : Nat
  /-- The lines that went to the journal. -/
  journal : List String
  ending : Ending (Result × Shell)

/-- One step, and the state after it; nothing if it went beyond `patience`. -/
def step {σ : Type} (double : Double σ) (shell : Shell) (state : σ) (step : Step σ) :
    Option (Entry × σ) :=
  let entry (ending : Ending (Result × Shell)) (journal : List String) (after : σ) : Entry × σ :=
    ({ added := (double.record after).since (double.record state)
       unread := double.unread after
       journal, ending }, after)
  match step with
  | .call call =>
    let (answer, after) := perform double.host state call
    some (entry (.returned (.answer answer, shell)) [] after)
  | .change onShell onDouble =>
    some (entry (.returned (.nothing, onShell shell)) [] (onDouble state))
  | step =>
    ((step.action shell).run double.host.journaling patience (state, [])).map
      fun (ending, after, journal) => entry ending journal after

/-- Steps in order, up to the first that ends the process. -/
def run {σ : Type} (double : Double σ) (shell : Shell) (state : σ) :
    List (Step σ) → Option (List Entry)
  | [] => some []
  | next :: rest => do
    let (entry, state) ← step double shell state next
    match entry.ending with
    | .exited _ => some [entry]
    | .returned (_, shell) => some (entry :: (← run double shell state rest))

end TinyShell.Rehearsal
