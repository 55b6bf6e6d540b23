import TinyShell.Action.Host
import TinyShell.Rehearsal.Record

/-!
# The script

A stand-in that answers as it is told: each call takes the first outcome that was planned for its
kind, and succeeds if there is none. Input can hold errors and ends between its bytes.
-/

namespace TinyShell

open Text (Bytes)

/-- The calls whose outcomes can be planned. -/
inductive CallKind where
  | spawn
  | exec
  | pipe
  | duplicate
  | close
  | openFile
  | write
  | wait
  | tryWait
  | changeDirectory
  deriving DecidableEq, Repr, Inhabited

/-- A planned outcome. -/
inductive Outcome where
  /-- The call succeeds in its own way. -/
  | plain
  | failure (errno : Errno)
  /-- The status of a program or child, or the number of bytes taken. -/
  | value (value : Int32)
  /-- The child has not ended yet. -/
  | running
  deriving DecidableEq, Repr, Inhabited

/-- An item of the input. -/
inductive InputItem where
  | byte (byte : UInt8)
  | failure (errno : Errno)
  | endOfInput
  deriving DecidableEq, Repr, Inhabited

/-- The bytes before the next event, at most `count` of them, and what is left. -/
def InputItem.takeBytes : (count : Nat) → List InputItem → Bytes × List InputItem
  | count + 1, byte b :: rest =>
    let (bytes, rest) := takeBytes count rest
    (b :: bytes, rest)
  | _, rest => ([], rest)

/-- The state of a script. -/
structure Script where
  input : List InputItem := []
  record : Record := {}
  /-- The descriptors to hand out before any other. -/
  descriptors : List Descriptor := []
  plan : List (CallKind × Outcome) := []
  nextDescriptor : Descriptor := 3
  lastPid : Pid := 100
  /-- The children that have ended and were not waited for, each with its status. -/
  ended : List (Pid × Status) := []
  /-- The status of the program that the running process has become. -/
  replaced : Option Status := none
  deriving DecidableEq, Repr, Inhabited

namespace Script

/-- The number of the shell's own process. -/
def ownPid : Pid := 42

def addEvent (script : Script) (event : Event) : Script :=
  { script with record := script.record.addEvent event }

/-- The first outcome of a kind, which is used up by this. -/
def takeOutcome (script : Script) (kind : CallKind) : Outcome × Script :=
  match script.plan.lookup kind with
  | none => (.plain, script)
  | some outcome =>
    (outcome, { script with plan := script.plan.eraseP fun (other, _) => other = kind })

/-- The next descriptor. -/
def takeDescriptor (script : Script) : Descriptor × Script :=
  match script.descriptors with
  | fd :: rest => (fd, { script with descriptors := rest })
  | [] =>
    (script.nextDescriptor, { script with nextDescriptor := script.nextDescriptor + 1 })

/-- A call with the outcome planned for it: a failure is recorded as such, and `success` has the
rest. -/
def planned {α : Type} (script : Script) (kind : CallKind) (attempt : Attempt)
    (success : Outcome → Script → Except Errno α × Script) : Except Errno α × Script :=
  match script.takeOutcome kind with
  | (.failure errno, script) => (.error errno, script.addEvent (.failed attempt errno))
  | (outcome, script) => success outcome script

/-- A planned call that only succeeds or fails. -/
def plannedUnit (script : Script) (kind : CallKind) (request : Request) :
    Except Errno Unit × Script :=
  script.planned kind (.ask request) fun _ script => (.ok (), script.addEvent (.asked request))

/-- The status of a child, planned or its own; it is forgotten by this. -/
def collect (script : Script) (pid : Pid) (outcome : Outcome) : Except Errno Status × Script :=
  let script' := { script with ended := script.ended.filter (·.1 ≠ pid) }
  match outcome, script.ended.lookup pid with
  | .value status, _ => (.ok status, script')
  | _, some status => (.ok status, script')
  | _, none => (.error .echild, script')

/-- The bytes up to the next event; the event itself if it comes first. -/
def read (script : Script) (count : Nat) : Except Errno Bytes × Script :=
  if count = 0 then
    (.ok [], script)
  else
    match script.input with
    | .failure errno :: rest => (.error errno, { script with input := rest })
    | .endOfInput :: rest => (.ok [], { script with input := rest })
    | items =>
      let (bytes, rest) := InputItem.takeBytes count items
      (.ok bytes, { script with input := rest })

/-- The reply to a call. -/
def answer : (request : Request) → Script → request.Reply × Script
  | request@(.pipe), script =>
    script.planned .pipe (.ask request) fun _ script =>
      let (readEnd, script) := script.takeDescriptor
      let (writeEnd, script) := script.takeDescriptor
      let pipe : Pipe := ⟨readEnd, writeEnd⟩
      (.ok pipe, script.addEvent (.piped pipe))
  | request@(.duplicate ..), script => script.plannedUnit .duplicate request
  | request@(.close _), script => script.plannedUnit .close request
  | request@(.openFile ..), script =>
    script.planned .openFile (.ask request) fun _ script =>
      let (fd, script) := script.takeDescriptor
      (.ok fd, script.addEvent (.asked request))
  | .read _ count, script => script.read count
  | request@(.write fd bytes), script =>
    script.planned .write (.ask request) fun outcome script =>
      let taken := match outcome with
        | .value limit => bytes.take limit.toInt.toNat
        | _ => bytes
      (.ok taken.length,
        if fd = .output then { script with record := script.record.addOutput taken } else script)
  | request@(.wait pid), script =>
    script.planned .wait (.ask request) fun outcome script =>
      (script.addEvent (.asked request)).collect pid outcome
  | request@(.tryWait pid), script =>
    script.planned .tryWait (.ask request) fun outcome script =>
      let script := script.addEvent (.asked request)
      if outcome = .running then
        (.ok none, script)
      else
        let (result, script) := script.collect pid outcome
        (result.map some, script)
  | request@(.changeDirectory _), script => script.plannedUnit .changeDirectory request
  | .processId, script => (ownPid, script)
  | .report level message, script =>
    ((), if script.replaced.isSome then script
      else { script with record := script.record.addReport level message })

/-- A program takes over, with its planned status or success. -/
def exec (program : String) (argv : List String) (script : Script) :
    Except Errno Status × Script :=
  script.planned .exec (.exec program argv) fun outcome script =>
    let status := match outcome with
      | .value status => status
      | _ => 0
    (.ok status, { script.addEvent (.executed program argv) with replaced := some status })

/-- The number of a new child. -/
def fork (script : Script) : Except Errno Pid × Script :=
  script.planned .spawn .spawn fun _ script =>
    let pid := script.lastPid + 1
    (.ok pid, { script.addEvent (.forked pid) with lastPid := pid })

/-- The end of a child: its status is that of the program that it became, or its own. -/
def finish (child : Script) (pid : Pid) (status : Status) : Script :=
  { child with
    replaced := none
    ended := (pid, child.replaced.getD status) :: child.ended.filter (·.1 ≠ pid) }

/-- The script as a host. There is one record for all processes. -/
def host : Host Script where
  answer := answer
  exec := exec
  fork := fork
  join _ child pid status := child.finish pid status
  note _ script := script

end Script

end TinyShell
