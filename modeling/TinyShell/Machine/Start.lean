import TinyShell.Machine.World

/-!
# Starts and ends

A machine at the moment when its first process starts, and what can be seen of it in the end.
-/

namespace TinyShell.Machine

open Text (Bytes)

/-- Where standard input comes from. -/
inductive Source where
  | bytes (bytes : Bytes)
  | path (path : String)
  deriving Inhabited

/-- Where standard output goes to. -/
inductive Sink where
  | shown
  | path (path : String)
  deriving Inhabited

/-! ## Files -/

/-- The directories that every machine has. -/
def systemDirectories : List String :=
  ["boot", "dev", "dev/pts", "dev/shm", "etc", "home", "media", "mnt", "opt", "proc", "proc/self",
    "proc/self/fd", "root", "run", "run/lock", "srv", "sys", "tmp", "usr", "usr/bin", "usr/games",
    "usr/include", "usr/lib", "usr/lib64", "usr/libexec", "usr/local", "usr/local/bin",
    "usr/local/lib", "usr/local/share", "usr/sbin", "usr/share", "usr/src", "var", "var/backups",
    "var/cache", "var/lib", "var/local", "var/log", "var/mail", "var/opt", "var/spool", "var/tmp"]

/-- The links that every machine has. -/
def systemLinks : List (String × String) :=
  [("bin", "usr/bin"), ("lib", "usr/lib"), ("lib64", "usr/lib64"), ("sbin", "usr/sbin"),
    ("dev/fd", "/proc/self/fd"), ("dev/stdin", "/proc/self/fd/0"),
    ("dev/stdout", "/proc/self/fd/1"), ("dev/stderr", "/proc/self/fd/2"),
    ("var/lock", "/run/lock"), ("var/run", "/run")]

/-- The devices that every machine has. -/
def systemDevices : List (String × Device) :=
  [("dev/null", .null), ("dev/zero", .zero), ("dev/full", .full), ("dev/tty", .terminal)]

/-- The files that every machine has, with tools of the given names. -/
def systemFiles (tools : List String) : Files :=
  let entry (path : String) (node : Node) : Path × Node := (path.splitOn "/", node)
  let nodes := systemDirectories.map (entry · .directory) ++
    systemLinks.map (fun (path, target) => entry path (.link target)) ++
    systemDevices.map (fun (path, device) => entry path (.device device)) ++
    (List.range 20).map (fun fd =>
      (["proc", "self", "fd", toString fd], .handle (Int32.ofNat fd))) ++
    tools.map fun name => (["usr", "bin", name], .tool name)
  { nodes }

/-- Where the files of a run are put. -/
def workDirectory : Path := ["tmp", "work"]

/-- Whether a file that is put on the machine can be run: a script that names its program, or a
name that says so. -/
def runnable (name : String) (content : Bytes) : Bool :=
  (Text.encode "#!").isPrefixOf content || name.endsWith ".x"

/-- A file or directory put below the working directory, with the directories that lead there. All
of them that are new were changed at that time, and so was the directory that was there before. -/
def place (files : Files) (time : Int) (name : String) (content : Option Bytes) : Files :=
  let path := workDirectory ++ (name.splitOn "/").filter (· ≠ "")
  let placed := match content with
    | none => files.insertDirectories path
    | some content =>
      (files.insertDirectories path.dropLast).insert path
        (.file ⟨content.toArray⟩ (runnable name content))
  let prefixes := (List.range (path.length + 1)).map path.take
  let old := prefixes.countP fun place => (files.lookup place).isSome
  if old = prefixes.length then placed
  else (prefixes.drop (old - 1)).foldl (fun files place => files.stamp place time) placed

/-! ## The first process -/

/-- The channels of standard input, standard output and standard error. -/
def inputChannel : Nat := 0

def outputChannel : Nat := 1

def errorChannel : Nat := 2

/-- The number of the first process. It is large, so that a text holds it only where it names the
process. -/
def firstPid : Pid := 1987654

/-- The settings that the first process gets, and its children after it. -/
def firstEnvironment : List (String × String) := [("PATH", "/usr/bin:/bin"), ("LC_ALL", "C")]

/-- A descriptor of the first process for a target. -/
def attach (machine : Machine) (fd : Descriptor) (target : Target) (access : Access) : Machine :=
  let index := machine.openFiles.size
  { machine with openFiles := machine.openFiles.push { target, access } }.modifyProcess firstPid
    (·.assigning { fd, index })

/-- A descriptor of the first process for what is at a path. -/
def attachPath (machine : Machine) (fd : Descriptor) (path : String) (access : Access) : Machine :=
  match machine.files.resolve [] path with
  | .error _ => machine
  | .ok place =>
    match machine.files.lookup place with
    | some .directory => machine.attach fd (.directory place) access
    | some (.device device) => machine.attach fd (.device device) access
    | _ => machine.attach fd (.file place) access

/-- A machine with its first process, and with files below a directory of their own if there are
any to be put there. Nobody is killed by a pipe that has broken. -/
def start (tools : List String) (source : Source) (sink : Sink)
    (files : Option (List (String × Option Bytes))) : Machine :=
  let placed := files.map fun given =>
    given.zipIdx.foldl (fun files ((name, content), index) =>
        place files ((index : Int) - given.length) name content)
      ((systemFiles tools).insertDirectories workDirectory)
  let input : Channel := match source with
    | .bytes bytes => { bytes := ⟨bytes.toArray⟩ }
    | .path _ => {}
  let machine : Machine := {
    files := placed.getD (systemFiles tools)
    channels := #[input, { shown := true }, { shown := true }]
    lastPid := firstPid
    processes := [{
      pid := firstPid
      parent := outside
      directory := if files.isSome then workDirectory else []
      environment := firstEnvironment
      ignored := [Signal.brokenPipe] }] }
  let machine := match source with
    | .bytes _ => machine.attach 0 (.channel inputChannel) .readOnly
    | .path path => machine.attachPath 0 path .readOnly
  let machine := match sink with
    | .shown => machine.attach 1 (.channel outputChannel) .writeOnly
    | .path path => machine.attachPath 1 path .writeOnly
  machine.attach 2 (.channel errorChannel) .writeOnly

/-! ## The end -/

/-- The bytes of a channel. -/
def channelBytes (machine : Machine) (index : Nat) : Bytes := (machine.channel index).bytes.toList

/-- How the first process ended, if it did. -/
def outcome? (machine : Machine) : Option Death :=
  (machine.ended.find? (·.pid = firstPid)).map (·.death)

/-- The files below the working directory that the machine started with: a name ends in a slash
and has no content if it is a directory. -/
def placedFiles (machine : Machine) : List (String × Option Bytes) :=
  (machine.files.below workDirectory).filterMap fun (path, node) =>
    let name := "/".intercalate path
    match node with
    | .directory => some (name ++ "/", none)
    | .file content _ => some (name, some content.toList)
    | _ => none

end TinyShell.Machine
