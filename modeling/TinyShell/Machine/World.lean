import TinyShell.Machine.Image

/-!
# Worlds

A machine with what its processes do. The processes take turns: the next to make a step is always
the one that has lived the shortest, of those that need not wait. So sleeping takes time, and
everything else nearly none.

Like the machine itself, this stands in for the system outside the shell; no theorem is about it.
-/

namespace TinyShell.Machine

/-- A machine whose processes each have a program. -/
structure World where
  machine : Machine
  /-- The programs of the living processes, by their numbers. -/
  programs : List (Pid × Program Status)
  /-- How the tools behave that the machine knows. -/
  tools : (name : String) → (argv : List String) → Option (Program Status)

namespace World

/-- Microseconds that a step takes, that starting a child takes its parent and the child, and that
becoming a program takes. -/
def stepTime : Nat := 2

def forkTime : Nat := 100

def birthTime : Nat := 150

def execTime : Nat := 600

/-- Whether a process can make its next step now. -/
def isReady (machine : Machine) (process : Process) : Program Status → Bool
  | .ask call _ => machine.isReady process call
  | _ => true

/-- The process whose turn it is, with its program. -/
def next? (world : World) : Option (Process × Program Status) :=
  world.machine.processes.foldl (fun chosen process =>
    let sooner := match chosen with
      | some (other, _) => process.clock < other.clock
      | none => true
    if process.stopped || !sooner then chosen
    else
      match world.programs.lookup process.pid with
      | some program =>
        if isReady world.machine process program then some (process, program) else chosen
      | none => chosen) none

/-- The world with another program for a process, if it still lives. -/
def setProgram (world : World) (pid : Pid) (program : Program Status) : World :=
  { world with
    programs := world.programs.map fun (other, old) =>
      (other, if other = pid then program else old) }

/-- The world without the programs of the dead. -/
def clear (world : World) : World :=
  { world with
    programs := world.programs.filter fun (pid, _) => (world.machine.process? pid).isSome }

/-- The end of a process. -/
def finish (world : World) (process : Process) (status : Status) : World :=
  clear { world with machine := world.machine.bury process (.ofStatus status) }

/-- A child with a program of its own. -/
def spawn (world : World) (process : Process) (child : Program Status)
    (rest : Except Errno Pid → Program Status) : World :=
  let pid := world.machine.lastPid + 1
  let born : Process := { process with
    pid
    parent := process.pid
    clock := process.clock + birthTime
    pending := []
    held := [] }
  let machine := world.machine.modifyProcess process.pid fun process =>
    { process with clock := process.clock + forkTime }
  setProgram { world with
    machine := { machine with lastPid := pid, processes := machine.processes ++ [born] }
    programs := world.programs ++ [(pid, child)] } process.pid (rest (.ok pid))

/-- A process that becomes a program: it keeps its descriptors, except those put aside. -/
def become (world : World) (process : Process) (name : String) (argv : List String)
    (rest : Errno → Program Status) : World :=
  match nulNote? name argv with
  | some text =>
    setProgram { world with machine := world.machine.note text } process.pid (rest .einval)
  | none =>
    match imageNamed world.machine process.directory name argv with
    | .error errno => setProgram world process.pid (rest errno)
    | .ok image =>
      match world.tools image.tool image.argv with
      | none => setProgram world process.pid (rest .enoexec)
      | some program =>
        setProgram { world with
          machine := world.machine.modifyProcess process.pid fun process =>
            { process with
              clock := process.clock + execTime
              table := process.table.filter (!·.aside)
              caught := []
              pending := [] } } process.pid program

/-- One step of a process. -/
def step (world : World) (process : Process) : Program Status → World
  | .done status | .exit status => world.finish process status
  | .ask call rest =>
    let (reply, machine) := world.machine.answer process call
    clear (setProgram { world with machine } process.pid (rest reply))
  | .exec name argv rest => world.become process name argv rest
  | .spawn child rest => world.spawn process child rest
  | .note text rest =>
    setProgram { world with machine := world.machine.note text } process.pid rest
  | .loop body start rest =>
    setProgram world process.pid <| (body start).andThen fun
      | .inl state => .loop body state rest
      | .inr value => rest value

/-- Steps until no process can make another, or `bound` of them. -/
def run : (bound : Nat) → World → Option Machine
  | 0, _ => none
  | bound + 1, world =>
    match world.next? with
    | none => some world.machine
    | some (process, program) =>
      let clock := max world.machine.clock process.clock
      let process := { process with clock := clock + stepTime }
      let machine := { world.machine with clock }.modifyProcess process.pid fun _ => process
      run bound ({ world with machine }.step process program)

end World

end TinyShell.Machine
