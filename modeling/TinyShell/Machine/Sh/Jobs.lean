import TinyShell.Machine.Sh.Env

/-!
# Jobs

The children of a script: which of them belong together, and how they ended.
-/

namespace TinyShell.Machine.Sh

/-- What is said about a process that a signal has ended. -/
def deathMessage? : Death → Option String
  | .exited _ => none
  | .signaled signal =>
    if signal = Signal.interrupt || signal = Signal.brokenPipe then none
    else some signal.describe

/-- The number for a new job: the first that is free, or whose job is done and was waited for.
`count` bounds the search. -/
def freeNumber (jobs : List Job) : (count : Nat) → (candidate : Nat) → Nat
  | 0, candidate => candidate
  | count + 1, candidate =>
    match jobs.find? (·.number = candidate) with
    | none => candidate
    | some job =>
      if job.waited && !job.isRunning then candidate else freeNumber jobs count (candidate + 1)

/-- A new job, with its number. -/
def newJob : Sh Nat := do
  let env ← get
  let number := freeNumber env.jobs env.jobs.length 1
  let others := env.jobs.filter (·.number ≠ number)
  set { env with jobs := { number } :: others }
  return number

def job? (number : Nat) : Sh (Option Job) := do
  return (← get).jobs.find? (·.number = number)

def modifyJob (number : Nat) (change : Job → Job) : Sh Unit :=
  modify fun env =>
    { env with jobs := env.jobs.map fun job => if job.number = number then change job else job }

def dropJob (number : Nat) : Sh Unit :=
  modify fun env => { env with jobs := env.jobs.filter (·.number ≠ number) }

/-- One more process of a job. -/
def joinJob (number : Nat) (pid : Pid) : Sh Unit :=
  modifyJob number fun job => { job with processes := job.processes ++ [(pid, none)] }

/-- How a process ended, put down in its job. -/
def recordDeath (pid : Pid) (death : Death) : Sh Unit :=
  modify fun env =>
    { env with
      jobs := env.jobs.map fun job =>
        { job with
          processes := job.processes.map fun (other, known) =>
            (other, if other = pid then some death else known) } }

/-- Children that have ended are put down, until the job of a number is done, or until none is
left to wait for. What ended a process of this job is said. -/
def collect (patience : Patience) (number : Option Nat) : Sh Bool :=
  iterate (fun patience : Patience => do
    let job := (← get).jobs.find? fun job => some job.number = number
    let patience := match job with
      | some job => if job.isRunning then patience else .none
      | none => patience
    match ← call (.awaitChild patience) with
    | .error _ => return .inr true
    | .ok none => return .inr (patience = .none)
    | .ok (some (pid, death)) =>
      recordDeath pid death
      if job.any (·.processes.any (·.1 = pid)) then
        if let some message := deathMessage? death then
          say (message ++ "\n")
      return .inl (if number.isNone then .none else patience)) patience

/-- Children that have ended already are put down. -/
def collectEnded : Sh Unit := do
  if (← get).jobs.any (·.isRunning) then
    let _ ← collect .none none

/-- The status of a job when it is done; it is forgotten then. -/
def waitForJob (number : Nat) : Sh Nat := do
  let _ ← collect .full (some number)
  let status := ((← job? number).map (·.status)).getD 0
  dropJob number
  return status

/-! ## Signals -/

/-- Whether a signal was ignored when the script began. Then it stays so. -/
def isUntouchable (signal : Signal) : Sh Bool := do
  match (← get).examined.lookup signal with
  | some ignored => return ignored
  | none =>
    let ignored := (← call (.disposition signal)) = .ignored
    modify fun env => { env with examined := (signal, ignored) :: env.examined }
    return ignored

/-- What happens on a signal, as the traps say. -/
def arrange (signal : Signal) : Sh Unit := do
  unless ← isUntouchable signal do
    let disposition : Disposition := match (← get).traps.lookup signal with
      | none => .normal
      | some "" => .ignored
      | some _ => .caught
    call (.arrange signal disposition)

/-- The signals that have come are added to those that are pending. -/
def noteSignals : Sh Unit := do
  if (← get).traps.any fun (signal, action) => signal ≠ 0 && action ≠ "" then
    let caught ← call .caught
    modify fun env => { env with pending := env.pending ++ caught }

/-! ## Children -/

/-- What a child is started for. -/
inductive Role where
  | foreground
  /-- In the background; the first process of its job has no input. -/
  | background (first : Bool)
  deriving DecidableEq, Repr, Inhabited

/-- The state of a child: it has no jobs and no traps of its own yet. -/
def enterChild (role : Role) : Sh Unit := do
  let env ← get
  let kept := env.traps.filter fun (_, action) => action = ""
  set { env with
    isChild := true, jobs := [], redirects := [], traps := kept, pending := [], trace := 2 }
  for (signal, action) in env.traps do
    if action ≠ "" && signal ≠ 0 then
      arrange signal
  if let .background first := role then
    for signal in [Signal.interrupt, Signal.quit] do
      call (.arrange signal .ignored)
      modify fun env => { env with examined := (signal, true) :: env.examined }
    if first then
      let _ ← request (.close .input)
      let _ ← request (.openFile "/dev/null" { access := .readOnly })

end TinyShell.Machine.Sh
