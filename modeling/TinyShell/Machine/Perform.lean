import TinyShell.Machine.Basic

/-!
# Performing calls

When a call of a process can be answered, and what the answer is. A call that cannot be answered
yet waits for other processes.
-/

namespace TinyShell.Machine

open Text (Bytes)

/-- Whether a call can be answered now: bytes have come or cannot come any more, there is room for
bytes or nobody to take them, a child has ended or there is none. -/
def isReady (machine : Machine) (process : Process) : Call → Bool
  | .request (.read fd count) =>
    match machine.openFile? process fd with
    | some (_, { target := .channel index, access, .. }) =>
      access = .writeOnly || count = 0 || 0 < (machine.channel index).length ||
        !machine.hasWriters index
    | _ => true
  | .request (.write fd bytes) =>
    match machine.openFile? process fd with
    | some (_, { target := .channel index, access, .. }) =>
      let channel := machine.channel index
      access = .readOnly || bytes.isEmpty || channel.shown ||
        0 < channel.accepted bytes.length || !machine.hasReaders index
    | _ => true
  | .request (.wait pid) => isOver pid
  | .awaitChild patience =>
    patience = .none || (patience = .untilSignal && !process.pending.isEmpty) ||
      machine.ended.any (·.parent = process.pid) || isChildless
  | _ => true
where
  isChildless : Bool := !machine.processes.any (·.parent = process.pid)
  isOver (pid : Pid) : Bool :=
    !machine.processes.any fun other => other.pid = pid && other.parent = process.pid

/-! ## Files -/

/-- What is known of what is at a path. -/
def statusOf (files : Files) (path : Path) (node : Node) : FileStatus :=
  let status (kind : FileKind) (size : Nat) (executable : Bool) : FileStatus :=
    { kind, size, executable, identity := path, time := files.time path }
  match node with
  | .directory => status .directory 4096 true
  | .file content executable => status .regular content.size executable
  | .tool _ => status .regular 40000 true
  | .device _ => status .character 0 false
  | .link target => status .link target.utf8ByteSize true
  | .handle _ => status .link 64 true

/-- What is known of what an open file stands for. -/
def statusOfTarget (machine : Machine) : Target → FileStatus
  | .file path | .directory path =>
    statusOf machine.files path ((machine.files.lookup path).getD .directory)
  | .device device =>
    { kind := .character, size := 0, executable := false, identity := [toString (repr device)] }
  | .channel index =>
    { kind := .channel, size := 0, executable := false, identity := ["", toString index] }

/-- The names that a process finds in a directory. Among the handles are those that it has open, and
one more for the directory itself. -/
def namesIn (machine : Machine) (process : Process) (place : Path) : List String :=
  (machine.files.names place).filter fun name =>
    match machine.files.lookup (place ++ [name]) with
    | some (.handle fd) => fd = process.free 0 || (machine.openFile? process fd).isSome
    | _ => true

/-- What is opened at a place that is there; a handle is what the process has open already. -/
def target? (machine : Machine) (process : Process) (path : Path) : Node → Except Errno Target
  | .directory | .link _ => .ok (.directory path)
  | .device .terminal => .error .enxio
  | .device device => .ok (.device device)
  | .file .. | .tool _ => .ok (.file path)
  | .handle fd =>
    match machine.openFile? process fd with
    | some (_, file) => .ok file.target
    | none => .error .enoent

/-- A target opened as the flags say. -/
def openTarget (machine : Machine) (process : Process) (flags : OpenFlags) (target : Target) :
    Except Errno Descriptor × Machine :=
  match target with
  | .directory _ =>
    if flags.create || flags.access ≠ .readOnly then (.error .eisdir, machine)
    else install
  | _ => install
where
  install : Except Errno Descriptor × Machine :=
    let machine := match target with
      | .file path =>
        if flags.truncate then
          { machine with
            files := (machine.files.modifyContent path fun _ => .empty).stamp path process.clock }
        else machine
      | _ => machine
    let (fd, machine) :=
      machine.install process { target, access := flags.access, append := flags.append }
    (.ok fd, machine)

/-- A file opened as the flags say. One that is to be made is empty and cannot be run. -/
def openPath (machine : Machine) (process : Process) (path : String) (flags : OpenFlags) :
    Except Errno Descriptor × Machine :=
  let place := if flags.create then machine.files.resolveNew process.directory path
    else machine.files.resolve process.directory path
  match place with
  | .error errno => (.error errno, machine)
  | .ok place =>
    match machine.files.lookup place with
    | some node =>
      match machine.target? process place node with
      | .error errno => (.error errno, machine)
      | .ok target => openTarget machine process flags target
    | none =>
      if flags.create then
        let files := (machine.files.insert place (.file .empty false)).stamp place process.clock
        let files := files.stamp place.dropLast process.clock
        openTarget { machine with files } process flags (.file place)
      else
        (.error .enoent, machine)

/-! ## Bytes -/

/-- So many zeros. -/
def zeros (count : Nat) : Bytes := List.replicate count 0

/-- At most `count` bytes from a descriptor. -/
def readOpen (machine : Machine) (process : Process) (fd : Descriptor) (count : Nat) :
    Except Errno Bytes × Machine :=
  match machine.openFile? process fd with
  | none => (.error .ebadf, machine)
  | some (index, file) =>
    if file.access = .writeOnly then (.error .ebadf, machine)
    else match file.target with
      | .directory _ => (.error .eisdir, machine)
      | .device .null => (.ok [], machine)
      | .device _ => (.ok (zeros count), machine)
      | .file path =>
        let bytes := (machine.files.content path).extract file.offset (file.offset + count)
        (.ok bytes.toList, machine.moveOffset index (file.offset + bytes.size))
      | .channel channel =>
        let bytes := (machine.channel channel).front count
        (.ok bytes.toList, machine.modifyChannel channel (·.drop bytes.size))

/-- Bytes put over others from an offset on; a hole before them is filled with zeros. -/
def overwrite (old : ByteArray) (offset : Nat) (bytes : ByteArray) : ByteArray :=
  if old.size = offset then old ++ bytes
  else
    old.extract 0 offset ++ ⟨(zeros (offset - old.size)).toArray⟩ ++ bytes ++
      old.extract (offset + bytes.size) old.size

/-- As many of the bytes as can be taken now. -/
def writeOpen (machine : Machine) (process : Process) (fd : Descriptor) (bytes : Bytes) :
    Except Errno Nat × Machine :=
  match machine.openFile? process fd with
  | none => (.error .ebadf, machine)
  | some (index, file) =>
    if file.access = .readOnly then (.error .ebadf, machine)
    else match file.target with
      | .directory _ => (.error .eisdir, machine)
      | .device .full => (if bytes.isEmpty then .ok 0 else .error .enospc, machine)
      | .device _ => (.ok bytes.length, machine)
      | .channel channel =>
        let queue := machine.channel channel
        if bytes.isEmpty then (.ok 0, machine)
        else if !queue.shown && !machine.hasReaders channel then (.error .epipe, machine)
        else
          let taken := bytes.take (queue.accepted bytes.length)
          (.ok taken.length, machine.modifyChannel channel (·.push ⟨taken.toArray⟩))
      | .file path =>
        let offset := if file.append then (machine.files.content path).size else file.offset
        let machine := machine.moveOffset index (offset + bytes.length)
        (.ok bytes.length,
          { machine with
            files := (machine.files.modifyContent path (overwrite · offset ⟨bytes.toArray⟩)).stamp
              path process.clock })

/-! ## Processes -/

/-- How a child ended, which is forgotten by this; nothing if it has not. -/
def collect (machine : Machine) (process : Process) (pid : Pid) :
    Except Errno (Option Death) × Machine :=
  let mine (ended : Ended) : Bool := ended.pid = pid && ended.parent = process.pid
  match machine.ended.find? mine with
  | some ended => (.ok (some ended.death), { machine with ended := machine.ended.filter (!mine ·) })
  | none =>
    if isReady.isOver machine process pid then (.error .echild, machine) else (.ok none, machine)

/-- Microseconds until the end of a process is noticed by a parent that does not wait for it. -/
def noticeTime : Nat := 100

/-- The first child that has ended, which is forgotten by this; nothing if none has. -/
def collectFirst (machine : Machine) (process : Process) (patience : Patience) :
    Except Errno (Option (Pid × Death)) × Machine :=
  let mine (ended : Ended) : Bool :=
    ended.parent = process.pid &&
      (patience ≠ .none || ended.time + noticeTime ≤ process.clock)
  match machine.ended.find? mine with
  | some ended =>
    (.ok (some (ended.pid, ended.death)),
      { machine with ended := machine.ended.filter (·.pid ≠ ended.pid) })
  | none =>
    let childless := isReady.isChildless machine process &&
      !machine.ended.any (·.parent = process.pid)
    (if childless then .error .echild else .ok none, machine)

/-- The status of a death. -/
def statusOfDeath (death : Death) : Status := Int32.ofNat death.code

/-- A signal sent to a process. -/
def kill (machine : Machine) (pid : Pid) (signal : Signal) : Except Errno Unit × Machine :=
  match machine.process? pid with
  | some process =>
    (.ok (), if signal = 0 then machine else (machine.deliver process signal).release pid)
  | none =>
    -- A child that has ended is there until its parent asks.
    if machine.ended.any fun ended => ended.pid = pid && ended.parent ≠ outside then
      (.ok (), machine)
    else
      (.error .esrch, machine)

/-- A pipe with both of its ends open in a process. -/
def pipe (machine : Machine) (process : Process) : Except Errno Pipe × Machine :=
  let index := machine.channels.size
  let machine := { machine with channels := machine.channels.push {} }
  let (readEnd, machine) :=
    machine.install process { target := .channel index, access := .readOnly }
  let process := (machine.process? process.pid).getD process
  let (writeEnd, machine) :=
    machine.install process { target := .channel index, access := .writeOnly }
  (.ok ⟨readEnd, writeEnd⟩, machine)

/-- The answer to a call of the shell. -/
def answerRequest (machine : Machine) (process : Process) :
    (request : Request) → request.Reply × Machine
  | .pipe => machine.pipe process
  | .duplicate source target =>
    match process.entry? source with
    | none => (.error .ebadf, machine)
    | some entry =>
      (.ok (), if source = target then machine
        else machine.modifyProcess process.pid (·.assigning { fd := target, index := entry.index }))
  | .close fd =>
    match process.entry? fd with
    | none => (.error .ebadf, machine)
    | some _ => (.ok (), machine.modifyProcess process.pid (·.closing fd))
  | .openFile path flags => machine.openPath process path flags
  | .read fd count => machine.readOpen process fd count
  | .write fd bytes => machine.writeOpen process fd bytes
  | .wait pid =>
    let (death, machine) := machine.collect process pid
    (death.map fun death => (death.map statusOfDeath).getD 0, machine)
  | .tryWait pid =>
    let (death, machine) := machine.collect process pid
    (death.map (·.map statusOfDeath), machine)
  | .changeDirectory path =>
    match machine.files.resolve process.directory path with
    | .error errno => (.error errno, machine)
    | .ok place =>
      if machine.files.isDirectory place then
        (.ok (), machine.modifyProcess process.pid fun process =>
          { process with directory := place })
      else
        (.error .enotdir, machine)
  | .processId => (process.pid, machine)
  | .report .. => ((), machine)

/-- The answer to a call. -/
def answer (machine : Machine) (process : Process) : (call : Call) → call.Reply × Machine
  | .request request => machine.answerRequest process request
  | .sleep time =>
    ((), machine.modifyProcess process.pid fun process =>
      { process with clock := process.clock + time })
  | .inspect path keep =>
    (do
      let place ← machine.files.resolve process.directory path keep
      match machine.files.lookup place with
      | none => .error .enoent
      | some (.handle fd) =>
        match keep, machine.openFile? process fd with
        | true, some _ => .ok { kind := .link, size := 64, executable := true, identity := place }
        | false, some (_, file) => .ok (machine.statusOfTarget file.target)
        | _, none => .error .enoent
      | some (.device device) => .ok (machine.statusOfTarget (.device device))
      | some node => .ok (statusOf machine.files place node), machine)
  | .inspectOpen fd =>
    (match machine.openFile? process fd with
      | none => .error .ebadf
      | some (_, file) => .ok ⟨machine.statusOfTarget file.target, file.offset, file.append⟩,
      machine)
  | .list path =>
    (do
      let place ← machine.files.resolve process.directory path
      if machine.files.isDirectory place then .ok (machine.namesIn process place)
      else .error .enotdir, machine)
  | .seek fd offset =>
    match machine.openFile? process fd with
    | some (index, { target := .file _, .. }) => ((), machine.moveOffset index offset)
    | _ => ((), machine)
  | .available fd =>
    (match machine.openFile? process fd with
      | some (_, { target := .channel index, .. }) => (machine.channel index).length
      | some (_, { target := .file path, offset, .. }) =>
        (machine.files.content path).size - offset
      | _ => 0, machine)
  | .putAside fd lowest =>
    match process.entry? fd with
    | none => (.error .ebadf, machine)
    | some entry =>
      let copy := process.free lowest
      (.ok copy, machine.modifyProcess process.pid
        (·.assigning { fd := copy, index := entry.index, aside := true }))
  | .awaitChild patience => machine.collectFirst process patience
  | .kill pid signal => machine.kill pid signal
  | .arrange signal disposition =>
    ((), machine.modifyProcess process.pid fun process =>
      let ignored := process.ignored.filter (· ≠ signal)
      let caught := process.caught.filter (· ≠ signal)
      match disposition with
      | .normal => { process with ignored, caught }
      | .ignored => { process with ignored := signal :: ignored, caught }
      | .caught => { process with ignored, caught := signal :: caught })
  | .disposition signal =>
    (if process.ignored.contains signal then .ignored
      else if process.caught.contains signal then .caught
      else .normal, machine)
  | .caught =>
    (process.pending, machine.modifyProcess process.pid fun process =>
      { process with pending := [] })
  | .environment => (process.environment, machine)
  | .setEnvironment bindings =>
    ((), machine.modifyProcess process.pid fun process =>
      { process with environment := bindings })
  | .workingDirectory => (process.directory, machine)
  | .parentId => (process.parent, machine)

end TinyShell.Machine
