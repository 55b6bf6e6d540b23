import TinyShell.Action.Host
import TinyShell.Rehearsal.Record

/-!
# The recorder

A stand-in that grants every call and writes it down. Descriptors and process numbers count
upwards, and a child is kept with its status until someone waits for it. A child that has become
another program is silent until it ends: what it would still do is not done by the shell.
-/

namespace TinyShell

open Text (Bytes)

/-- The state of a recorder. -/
structure Recorder where
  input : Bytes := []
  record : Record := {}
  /-- The programs that are not found. -/
  missing : List String := []
  /-- The paths that are not found. -/
  badPaths : List String := []
  failFork : Bool := false
  /-- The status of every program. -/
  execStatus : Status := 0
  nextDescriptor : Descriptor := 3
  lastPid : Pid := 100
  /-- The children that have ended and were not waited for, each with its status. -/
  ended : List (Pid × Status) := []
  /-- Whether the running process has become another program. -/
  replaced : Bool := false
  deriving DecidableEq, Repr, Inhabited

namespace Recorder

/-- The number of the shell's own process. -/
def ownPid : Pid := 42

/-- The recorder with one more entry, unless it is silent. -/
def ifAwake (recorder : Recorder) (event : Event) : Recorder :=
  if recorder.replaced then recorder
  else { recorder with record := recorder.record.addEvent event }

def addEvent (recorder : Recorder) (event : Event) : Recorder :=
  { recorder with record := recorder.record.addEvent event }

/-- The status of a child that has ended; it is forgotten by this. -/
def collect (recorder : Recorder) (pid : Pid) : Except Errno Status × Recorder :=
  match recorder.ended.lookup pid with
  | some status => (.ok status, { recorder with ended := recorder.ended.filter (·.1 ≠ pid) })
  | none => (.error .echild, recorder)

/-- The reply to a call. -/
def answer : (request : Request) → Recorder → request.Reply × Recorder
  | .pipe, recorder =>
    let pipe : Pipe := ⟨recorder.nextDescriptor, recorder.nextDescriptor + 1⟩
    (.ok pipe, { recorder.addEvent (.piped pipe) with
      nextDescriptor := recorder.nextDescriptor + 2 })
  | request@(.duplicate ..), recorder => (.ok (), recorder.ifAwake (.asked request))
  | request@(.close _), recorder => (.ok (), recorder.ifAwake (.asked request))
  | request@(.openFile path _), recorder =>
    if path ∈ recorder.badPaths then
      (.error .enoent, recorder)
    else
      (.ok recorder.nextDescriptor, { recorder.addEvent (.asked request) with
        nextDescriptor := recorder.nextDescriptor + 1 })
  | .read _ count, recorder =>
    (.ok (recorder.input.take count), { recorder with input := recorder.input.drop count })
  | .write fd bytes, recorder =>
    (.ok bytes.length,
      if fd = .output ∧ !recorder.replaced then
        { recorder with record := recorder.record.addOutput bytes }
      else
        recorder)
  | request@(.wait pid), recorder => (recorder.addEvent (.asked request)).collect pid
  | .tryWait pid, recorder =>
    let (result, recorder) := recorder.collect pid
    (result.map some, recorder)
  | request@(.changeDirectory path), recorder =>
    if path ∈ recorder.badPaths then
      (.error .enoent, recorder)
    else
      (.ok (), recorder.addEvent (.asked request))
  | .processId, recorder => (ownPid, recorder)
  | .report level message, recorder =>
    ((), if recorder.replaced then recorder
      else { recorder with record := recorder.record.addReport level message })

/-- A program that is not missing takes over. -/
def exec (program : String) (argv : List String) (recorder : Recorder) :
    Except Errno Status × Recorder :=
  if program ∈ recorder.missing then
    (.error .enoent, recorder)
  else
    (.ok recorder.execStatus,
      { recorder.addEvent (.executed program argv) with replaced := true })

/-- The number of a new child. -/
def fork (recorder : Recorder) : Except Errno Pid × Recorder :=
  if recorder.failFork then
    (.error .eagain, recorder)
  else
    let pid := recorder.lastPid + 1
    (.ok pid, { recorder.addEvent (.forked pid) with lastPid := pid })

/-- The end of a child: its status is that of the program that it became, or its own. -/
def finish (child : Recorder) (pid : Pid) (status : Status) : Recorder :=
  let status := if child.replaced then child.execStatus else status
  { child with
    replaced := false
    ended := (pid, status) :: child.ended.filter (·.1 ≠ pid) }

/-- The recorder as a host. There is one record for all processes. -/
def host : Host Recorder where
  answer := answer
  exec := exec
  fork := fork
  join _ child pid status := child.finish pid status
  note _ recorder := recorder

end Recorder

end TinyShell
