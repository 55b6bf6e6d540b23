import TinyShell.Machine.Sh.Builtin.Basic
import TinyShell.Machine.Sh.Jobs

/-!
# Commands on processes

The built-in commands that send signals, wait for children and show them, and arrange for signals.
-/

namespace TinyShell.Machine.Sh.Builtin

/-! ## Signals -/

/-- The signal of a number. -/
def signalOfNumber? (text : String) : Option Signal :=
  let chars := text.toList
  if !chars.isEmpty && chars.all Char.isDigit && Tool.digitsValue chars ≤ Signal.last then
    some (Tool.digitsValue chars)
  else none

/-- The signal of a number or a name, names from the signal `lowest` on. -/
def signalOf? (text : String) (lowest : Signal) : Option Signal :=
  match signalOfNumber? text with
  | some signal => some signal
  | none =>
    let chars := text.toList
    let wanted := chars.map Char.toLower
    let names := "EXIT" :: Signal.names.drop 1
    ((names.drop lowest).findIdx? fun name => name.toList.map Char.toLower = wanted).map
      (· + lowest)

/-- The name of a signal, as lists of traps show it. -/
def signalName (signal : Signal) : String :=
  if signal = 0 then "EXIT" else (Signal.names[signal]?).getD ""

/-- The job that a word names behind a percent sign; without a word, the newest. -/
def jobNamed (word : String) : Sh Job := do
  let jobs := (← get).jobs
  let (found, message) := match word.toList with
    | [] | ['%'] | ['%', '%'] | ['%', '+'] => (jobs.head?, "No current job")
    | ['%', '-'] => (jobs[1]?, "No previous job")
    | '%' :: rest =>
      (if rest.all Char.isDigit then jobs.find? (·.number = Tool.digitsValue rest) else none,
        "No such job: " ++ word)
    | _ => (none, "No such job: " ++ word)
  match found with
  | some job => return job
  | none => fail message

/-- The process number that a job has for signals, or that digits write. -/
def targetOf (word : String) : Sh Pid := do
  match word.toList with
  | '%' :: _ =>
    let job ← jobNamed word
    return -((job.processes.head?.map (·.1)).getD 0)
  | '-' :: rest => return -(Int32.ofNat (← number (String.ofList rest)))
  | _ => return Int32.ofNat (← number word)

/-- A job to be gone on with, which is not possible in a script. -/
def resume (args : List String) : Sh Nat := do
  let word := args.headD ""
  let _ ← jobNamed word
  fail ("job " ++ (if args.isEmpty then "(null)" else word) ++ " not created under job control")

/-- How `kill` is used. -/
def killUsage : String :=
  "Usage: kill [-s sigspec | -signum | -sigspec] [pid | job]... or\nkill -l [exitstatus]"

/-- The names of signals, or of the one of a number. -/
def listSignals (args : List String) : Sh Nat := do
  match args with
  | [] =>
    for name in Signal.names do
      put (name ++ "\n")
    return 0
  | word :: _ =>
    let code ← number word
    let signal := if 128 < code then code - 128 else code
    if 0 < signal && signal ≤ Signal.last then
      put ((Signal.names[signal]?).getD "" ++ "\n")
      return 0
    else fail ("invalid signal number or exit status: " ++ word)

/-- A signal for processes. -/
def kill (args : List String) : Sh Nat := do
  if args.isEmpty then
    fail killUsage
  let first := ((args.head?.getD "").toList)
  let given : Option Signal := match first with
    | '-' :: name => signalOf? (String.ofList name) 1
    | _ => none
  let (signal, lists, targets) ← match given with
    | some signal => pure (some signal, false, args.drop 1)
    | none => do
      let (options, targets) ← readOptions [('l', false), ('s', true)] args
      let lists := options.any (·.1 = 'l')
      match (options.filter (·.1 = 's')).getLast? with
      | none => pure (none, lists, targets)
      | some (_, name) =>
        match signalOf? name 1 with
        | some signal => pure (some signal, lists, targets)
        | none => fail ("invalid signal number or name: " ++ name)
  if lists then
    if signal.isSome then
      fail killUsage
    return ← listSignals targets
  if targets.isEmpty then
    fail killUsage
  let mut status := 0
  for word in targets do
    let pid ← targetOf word
    match ← call (.kill pid (signal.getD Signal.terminated)) with
    | .ok () => pure ()
    | .error errno =>
      complain (errorText errno ++ "\n")
      status := 1
  return status

/-- What is to be done on signals, set and shown. -/
def trap (args : List String) : Sh Nat := do
  let (_, words) ← readOptions [] args
  let (action, names) := match words with
    | [name] => (none, [name])
    | action :: names =>
      if (signalOfNumber? action).isSome then (none, words) else (some action, names)
    | [] => (none, [])
  if names.isEmpty then
    let traps := (← get).traps.mergeSort fun a b => a.1 ≤ b.1
    for (signal, action) in traps do
      put ("trap -- " ++ quoted action ++ " " ++ signalName signal ++ "\n")
    return 0
  for name in names do
    match signalOf? name 0 with
    | none =>
      say ("trap: " ++ name ++ ": bad trap\n")
      return 1
    | some signal =>
      modify fun env =>
        let others := env.traps.filter (·.1 ≠ signal)
        match action with
        | none | some "-" => { env with traps := others }
        | some action => { env with traps := (signal, action) :: others }
      unless signal = 0 do
        arrange signal
  return 0

/-! ## Jobs -/

/-- What is known of a job. -/
def jobState (job : Job) : String :=
  if job.isRunning then "Running"
  else
    match job.processes.getLast?.bind (·.2) with
    | some (.exited 0) | none => "Done"
    | some (.exited code) => "Done(" ++ toString code ++ ")"
    | some (.signaled signal) => signal.describe

/-- The jobs, one on each line. -/
def listJobs (args : List String) : Sh Nat := do
  let (options, names) ← readOptions [('l', false), ('p', false)] args
  collectEnded
  let jobs := (← get).jobs
  let chosen ← if names.isEmpty then pure jobs else names.mapM jobNamed
  let padded (width : Nat) (text : String) : String :=
    text ++ String.ofList (List.replicate (width - text.length) ' ')
  for job in chosen do
    let pids := job.processes.map fun (pid, _) => toString pid
    if options.any (·.1 = 'p') then
      put ((pids.head?.getD "") ++ "\n")
    else
      let isFirst := jobs.head?.any (·.number = job.number)
      let isSecond := jobs[1]?.any (·.number = job.number)
      let sign := if isFirst then "+ " else if isSecond then "- " else "  "
      let lead := "[" ++ toString job.number ++ "] " ++ sign
      if options.any (·.1 = 'l') then
        put (padded 33 (lead ++ (pids.head?.getD "") ++ " " ++ jobState job))
        for pid in pids.drop 1 do
          put (padded 33 ("\n      " ++ pid ++ " "))
        put "\n"
      else
        put (padded 33 (lead ++ jobState job))
        put (String.join ((pids.drop 1).map fun _ => " | ") ++ "\n")
      unless job.isRunning do
        dropJob job.number
  return 0

/-- The status for a wait that a signal has ended. -/
def interrupted : Sh Nat := do
  noteSignals
  return 128 + ((← get).pending.getLast?.getD 0)

/-- Until no job is running, or a signal comes. -/
def waitForAll : Sh Nat :=
  iterate (fun _ : Unit => do
    if (← get).jobs.any (·.isRunning) then
      if ← collect .untilSignal none then return .inl ()
      else return .inr (← interrupted)
    else
      modify fun env =>
        { env with jobs := env.jobs.map fun job => { job with waited := true } }
      return .inr 0) ()

/-- Until a job is done or a signal comes; with the status, and whether no signal came. -/
def waitForOne (word : String) : Sh (Nat × Bool) := do
  let job ← match word.toList with
    | '%' :: _ => pure (some (← jobNamed word))
    | _ =>
      let pid := Int32.ofNat (← number word)
      pure ((← get).jobs.find? fun job => (job.processes.getLast?.map (·.1)) = some pid)
  match job with
  | none => return (127, true)
  | some job =>
    if ← collect .untilSignal (some job.number) then
      modifyJob job.number fun job => { job with waited := true }
      return (((← job? job.number).map (·.status)).getD 0, true)
    else return (← interrupted, false)

/-- Until children have ended. -/
def wait (args : List String) : Sh Nat := do
  let (_, words) ← readOptions [] args
  if words.isEmpty then
    return ← waitForAll
  let mut status := 0
  for word in words do
    let (found, complete) ← waitForOne word
    status := found
    unless complete do
      return status
  return status

/-! ## Permissions -/

/-- The bits of permissions for everybody, three for each of the owner, the group and all others. -/
def forAll : Nat := 0o111

/-- The permissions of one clause of a mode, where `rights` are those before all clauses; with what
is left. -/
def readRights (rights : Nat) : List Char → Nat → Nat × List Char
  | [], found => (found, [])
  | c :: rest, found =>
    match c with
    | 'r' => readRights rights rest (found ||| 4)
    | 'w' => readRights rights rest (found ||| 2)
    | 'x' => readRights rights rest (found ||| 1)
    | 'u' => readRights rights rest (found ||| rights / 64 % 8)
    | 'g' => readRights rights rest (found ||| rights / 8 % 8)
    | 'o' => readRights rights rest (found ||| rights % 8)
    | 'X' => readRights rights rest (if rights &&& forAll = 0 then found else found ||| 1)
    | 's' => readRights rights rest found
    | _ => (found, c :: rest)

/-- Those that the letters at the start of a clause name, with what is left. -/
def readOwners : List Char → Nat → Nat × List Char
  | [], found => (found, [])
  | c :: rest, found =>
    match c with
    | 'a' => readOwners rest (found ||| forAll)
    | 'u' => readOwners rest (found ||| 0o100)
    | 'g' => readOwners rest (found ||| 0o10)
    | 'o' => readOwners rest (found ||| 0o1)
    | _ => (found, c :: rest)

/-- The permissions that a mode makes of `now`, where `rights` are those before all of its clauses;
nothing if it is no mode. `owners` are those that the clause is about, as far as they have been
named. `count` bounds the clauses. -/
def applyMode (rights : Nat) : (count : Nat) → (owners now : Nat) → List Char → Option Nat
  | 0, _, now, _ => some now
  | _, _, now, [] => some now
  | count + 1, owners, now, chars =>
    let (owners, rest) := readOwners chars owners
    let owners := if owners = 0 then forAll else owners
    match rest with
    | [] => some now
    | op :: rest =>
      let (found, rest) := readRights rights rest 0
      let bits := found * owners
      let behind (now : Nat) : Option Nat :=
        match rest with
        | [] => some now
        | ',' :: rest => applyMode rights count 0 now rest
        | c :: _ => if ['=', '+', '-'].contains c then applyMode rights count owners now rest
          else none
      match op with
      | '-' => behind (now &&& (0o777 - bits))
      | '=' => behind (bits ||| (now &&& (0o777 - owners * 7)))
      | '+' => behind (now ||| bits)
      | _ => none

/-- The permissions that new files do not get. -/
def umask (args : List String) : Sh Nat := do
  let (options, words) ← readOptions [('S', false)] args
  let mask := (← get).mask
  match words with
  | [] =>
    if options.isEmpty then
      put ("0" ++ String.ofList (Nat.toDigits 8 (mask / 64) ++ Nat.toDigits 8 (mask / 8 % 8) ++
        Nat.toDigits 8 (mask % 8)) ++ "\n")
    else
      let rights (n : Nat) : String :=
        (if n / 4 % 2 = 0 then "r" else "") ++ (if n / 2 % 2 = 0 then "w" else "") ++
          (if n % 2 = 0 then "x" else "")
      put ("u=" ++ rights (mask / 64) ++ ",g=" ++ rights (mask / 8 % 8) ++ ",o=" ++
        rights (mask % 8) ++ "\n")
    return 0
  | word :: _ =>
    let chars := word.toList
    let isNumber : Bool := chars.head?.any Char.isDigit
    if isNumber then
      unless chars.all fun c => '0' ≤ c && c ≤ '7' do
        fail ("Illegal number: " ++ word)
      let mask := chars.foldl (fun n c => n * 8 + (c.toNat - '0'.toNat)) 0
      modify fun env => { env with mask := mask % 512 }
    else
      let rights := 0o777 - mask
      match applyMode rights (chars.length + 1) 0 rights chars with
      | some now => modify fun env => { env with mask := 0o777 - now }
      | none => fail ("Illegal mode: " ++ word)
    return 0

/-! ## Limits -/

/-- The limits of a process: letters, names and values. -/
def limits : List (Char × String × String) :=
  [('t', "time(seconds)", "unlimited"), ('f', "file(blocks)", "unlimited"),
    ('d', "data(kbytes)", "unlimited"), ('s', "stack(kbytes)", "8192"),
    ('c', "coredump(blocks)", "0"), ('m', "memory(kbytes)", "unlimited"),
    ('l', "locked memory(kbytes)", "8192"), ('p', "process", "unlimited"),
    ('n', "nofiles", "20000"), ('v', "vmemory(kbytes)", "unlimited"),
    ('w', "locks", "unlimited"), ('r', "rtprio", "0")]

/-- The limits, which stay as they are. -/
def ulimit (args : List String) : Sh Nat := do
  let letters := ['H', 'S', 'a'] ++ limits.map (·.1)
  let (options, words) ← readOptions (letters.map (·, false)) args
  let all := options.any (·.1 = 'a')
  let chosen := options.reverse.find? fun (letter, _) => limits.any (·.1 = letter)
  match words with
  | [] =>
    if all then
      for (_, name, value) in limits do
        put (name ++ String.ofList (List.replicate (20 - name.length) ' ') ++ " " ++ value ++ "\n")
    else
      put (((limits.lookup ((chosen.map (·.1)).getD 'f')).map (·.2)).getD "" ++ "\n")
    return 0
  | word :: rest =>
    if all || !rest.isEmpty then
      fail "too many arguments"
    if word ≠ "unlimited" && !word.all Char.isDigit then
      fail "bad number"
    return 0

/-- The time that the shell and its children have worked, which is none. -/
def times : Sh Nat := do
  put "0m0.000000s 0m0.000000s\n0m0.000000s 0m0.000000s\n"
  return 0

end TinyShell.Machine.Sh.Builtin
