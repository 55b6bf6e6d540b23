import TinyShell.Machine.Call

/-!
# Machines

A small Unix machine: processes with their descriptors, open files that descriptors share, channels
between processes, and a clock for each process. What the processes do is not part of it.

The machine, its toolbox and its script tool stand in for what is outside the shell: the system that
it runs on and the programs that it starts there. Only the command line runs on them, and they are
no part of what is proved. The theorems about the shell are about any `Host`, or about the
`Recorder`; none of them mentions a machine.
-/

namespace TinyShell

open Text (Bytes)

namespace Machine

/-- What an open file stands for. -/
inductive Target where
  | file (path : Path)
  | directory (path : Path)
  | device (device : Device)
  | channel (index : Nat)
  deriving DecidableEq, Repr, Inhabited

/-- An open file, which descriptors of several processes can share. -/
structure OpenFile where
  target : Target
  access : Access
  append : Bool := false
  offset : Nat := 0
  deriving DecidableEq, Repr, Inhabited

/-- A queue of bytes: what is in it begins at `start`. -/
structure Channel where
  bytes : ByteArray := .empty
  start : Nat := 0
  /-- Whether its far end is outside of the machine, where all is taken as it comes. -/
  shown : Bool := false
  deriving Inhabited

namespace Channel

/-- How many bytes a channel between processes can hold. -/
def capacity : Nat := 65536

/-- How many bytes are written at once or not at all. -/
def atomic : Nat := 4096

def length (channel : Channel) : Nat := channel.bytes.size - channel.start

def room (channel : Channel) : Nat := capacity - channel.length

/-- How many of so many bytes fit in now; none if they have to wait. -/
def accepted (channel : Channel) (count : Nat) : Nat :=
  if channel.shown then count
  else if count ≤ atomic then (if count ≤ channel.room then count else 0)
  else min count channel.room

def push (channel : Channel) (bytes : ByteArray) : Channel :=
  if channel.length = 0 && !channel.shown then { channel with bytes, start := 0 }
  else { channel with bytes := channel.bytes ++ bytes }

/-- The bytes at the front. -/
def front (channel : Channel) (count : Nat) : ByteArray :=
  channel.bytes.extract channel.start (channel.start + count)

def drop (channel : Channel) (count : Nat) : Channel :=
  { channel with start := channel.start + count }

end Channel

/-- A descriptor of a process: the open file that it stands for, and whether programs that the
process becomes do not get it. -/
structure Entry where
  fd : Descriptor
  index : Nat
  aside : Bool := false
  deriving DecidableEq, Repr, Inhabited

/-- A process. -/
structure Process where
  pid : Pid
  parent : Pid
  table : List Entry := []
  directory : Path := []
  environment : List (String × String) := []
  /-- Microseconds since the start, up to which the process has lived. -/
  clock : Nat := 0
  ignored : List Signal := []
  caught : List Signal := []
  /-- The signals that were caught and not yet looked at. -/
  pending : List Signal := []
  stopped : Bool := false
  /-- The signals that wait for a stopped process to go on. -/
  held : List Signal := []
  deriving Inhabited

/-- A child that has ended and was not waited for. -/
structure Ended where
  pid : Pid
  parent : Pid
  death : Death
  /-- When it ended. -/
  time : Nat := 0
  deriving DecidableEq, Repr, Inhabited

end Machine

/-- The state of a machine. -/
structure Machine where
  files : Machine.Files := { nodes := [] }
  openFiles : Array Machine.OpenFile := #[]
  channels : Array Machine.Channel := #[]
  processes : List Machine.Process := []
  ended : List Machine.Ended := []
  /-- Microseconds since the start. -/
  clock : Nat := 0
  /-- The last number that was given to a process. -/
  lastPid : Pid := 0
  /-- The lines of the journal, the last one first. -/
  journal : List String := []
  deriving Inhabited

namespace Machine

/-! ## Processes -/

/-- The living process of a number. -/
def process? (machine : Machine) (pid : Pid) : Option Process :=
  machine.processes.find? (·.pid = pid)

/-- The machine with one process changed. -/
def modifyProcess (machine : Machine) (pid : Pid) (change : Process → Process) : Machine :=
  { machine with
    processes := machine.processes.map fun process =>
      if process.pid = pid then change process else process }

namespace Process

/-- The entry of a descriptor. -/
def entry? (process : Process) (fd : Descriptor) : Option Entry :=
  process.table.find? (·.fd = fd)

/-- The lowest free number from `candidate` on; there is one among as many candidates as
descriptors are open. -/
def freeFrom (process : Process) : (attempts : Nat) → (candidate : Descriptor) → Descriptor
  | 0, candidate => candidate
  | attempts + 1, candidate =>
    if (process.entry? candidate).isSome then process.freeFrom attempts (candidate + 1)
    else candidate

/-- The lowest free number from `lowest` on. -/
def free (process : Process) (lowest : Descriptor) : Descriptor :=
  process.freeFrom process.table.length lowest

def closing (process : Process) (fd : Descriptor) : Process :=
  { process with table := process.table.filter (·.fd ≠ fd) }

/-- A descriptor made to stand for an open file. -/
def assigning (process : Process) (entry : Entry) : Process :=
  let closed := process.closing entry.fd
  { closed with table := entry :: closed.table }

/-- A signal that has come, if the process has arranged to look at it. -/
def noting (process : Process) (signal : Signal) : Process :=
  if process.caught.contains signal && !process.pending.contains signal then
    { process with pending := process.pending ++ [signal] }
  else process

end Process

/-! ## Open files -/

/-- The open file of a process's descriptor, with its index. -/
def openFile? (machine : Machine) (process : Process) (fd : Descriptor) :
    Option (Nat × OpenFile) := do
  let entry ← process.entry? fd
  let file ← machine.openFiles[entry.index]?
  return (entry.index, file)

/-- A new open file under the lowest free descriptor of a process. -/
def install (machine : Machine) (process : Process) (file : OpenFile) : Descriptor × Machine :=
  let fd := process.free 0
  let index := machine.openFiles.size
  (fd, { machine with openFiles := machine.openFiles.push file }.modifyProcess process.pid
    (·.assigning { fd, index }))

/-- Whether some process can use an open file of this kind. -/
def anyOpen (machine : Machine) (condition : OpenFile → Bool) : Bool :=
  machine.processes.any fun process =>
    process.table.any fun entry => (machine.openFiles[entry.index]?).any condition

/-- Whether bytes can still come into a channel. -/
def hasWriters (machine : Machine) (index : Nat) : Bool :=
  machine.anyOpen fun file => file.target = .channel index && file.access ≠ .readOnly

/-- Whether bytes in a channel can still be taken out. -/
def hasReaders (machine : Machine) (index : Nat) : Bool :=
  machine.anyOpen fun file => file.target = .channel index && file.access ≠ .writeOnly

/-- Whether a file is open for writing, so that it cannot be run. -/
def isWritten (machine : Machine) (path : Path) : Bool :=
  machine.anyOpen fun file => file.target = .file path && file.access ≠ .readOnly

def channel (machine : Machine) (index : Nat) : Channel := (machine.channels[index]?).getD {}

def modifyChannel (machine : Machine) (index : Nat) (change : Channel → Channel) : Machine :=
  { machine with channels := machine.channels.modify index change }

def moveOffset (machine : Machine) (index offset : Nat) : Machine :=
  { machine with openFiles := machine.openFiles.modify index fun file => { file with offset } }

def note (text : String) (machine : Machine) : Machine :=
  { machine with journal := text :: machine.journal }

/-! ## Ends -/

/-- The process that is the parent of the first one, and of all whose parent has ended. It is not
part of the machine. -/
def outside : Pid := 1

/-- A process is over: its descriptors are closed, its children get another parent, and its own
parent can ask how it ended. -/
def bury (machine : Machine) (process : Process) (death : Death) : Machine :=
  let pid := process.pid
  { machine with
    processes := (machine.processes.filter (·.pid ≠ pid)).map fun other =>
      if other.parent = pid then { other with parent := outside }
      else if other.pid = process.parent then other.noting Signal.childEnded
      else other
    ended := machine.ended.filter (·.parent ≠ pid) ++
      [⟨pid, process.parent, death, machine.clock⟩] }

/-- A signal reaches a process. -/
def deliver (machine : Machine) (process : Process) (signal : Signal) : Machine :=
  let change (f : Process → Process) : Machine := machine.modifyProcess process.pid f
  let wake (process : Process) : Process :=
    { process with stopped := false, clock := max process.clock machine.clock }
  if signal = 9 then machine.bury process (.signaled signal)
  else if process.stopped && signal.effect ≠ .proceed && signal ≠ 19 then
    change fun process => { process with held := process.held ++ [signal] }
  else if process.ignored.contains signal && !signal.isSovereign then
    if signal.effect = .proceed then change wake else machine
  else if process.caught.contains signal && !signal.isSovereign then
    change fun process =>
      (if signal.effect = .proceed then wake process else process).noting signal
  else
    match signal.effect with
    | .terminate => machine.bury process (.signaled signal)
    | .nothing => machine
    | .stop => change fun process => { process with stopped := true }
    | .proceed => change wake

/-- The signals that were held back reach a process that goes on. -/
def release (machine : Machine) (pid : Pid) : Machine :=
  match machine.process? pid with
  | none => machine
  | some process =>
    if process.stopped then machine
    else
      process.held.foldl (fun machine signal =>
        match machine.process? pid with
        | some process => machine.deliver process signal
        | none => machine) (machine.modifyProcess pid fun process => { process with held := [] })

end Machine

end TinyShell
