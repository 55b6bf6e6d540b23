import TinyShell.Machine.Sh.Jobs
import TinyShell.Machine.Sh.Parser
import TinyShell.Machine.Sh.Redirection

/-!
# Running scripts

Commands one after another, from a text or a file, the actions of traps between them, and what is
still to be done at the end. How a single command is run is a parameter.
-/

namespace TinyShell.Machine.Sh

/-- How a command is run. -/
structure Mode where
  /-- Nothing comes behind the command: the process may end with it. -/
  exits : Bool := false
  /-- What depends on the status is looked after by somebody else. -/
  tested : Bool := false
  deriving DecidableEq, Repr, Inhabited

/-- How commands are run, each with its status. -/
abbrev Evaluate := Mode → Command → Sh Nat

/-- The commands of a file or a text that are still to be read. -/
structure Source where
  /-- Where more characters come from, if there are any. -/
  fd : Option Descriptor := none
  chars : List Char
  line : Nat := 1
  /-- Whether lines can be shown as they are read. -/
  isFile : Bool := false
  deriving Inhabited

/-- The characters up to the end of the line in which so many of them are. -/
def Source.used (source : Source) (left : Nat) : List Char :=
  let count := source.chars.length - left
  if (source.chars.take count).getLast?.all (· = '\n') then source.chars.take count
  else
    let rest := source.chars.drop count
    source.chars.take (count + (rest.takeWhile (· ≠ '\n')).length + 1)

/-- The lines of a file that have been read, if they are to be shown. -/
def showUsed (source : Source) (left : Nat) : Sh Unit := do
  if source.isFile && (← isOn 'v') then
    say (String.ofList (source.used left))

/-- Bytes of a script that are read at once. -/
def scriptBlock : Nat := 8192

/-- The next command of a script, nothing at its end. -/
def nextCommand (source : Source) : Sh (Option Parsed × Source) :=
  iterate (fun source : Source => do
    match parseCommand (← get).aliases source.chars source.line source.fd.isNone with
    | .ok none => return .inr (none, source)
    | .ok (some parsed) =>
      showUsed source parsed.rest.length
      return .inr (some parsed, { source with chars := parsed.rest, line := parsed.line })
    | .error (.wrong line left message) => do
      showUsed source left
      modify fun env => { env with line }
      fail message
    | .error .more =>
      match source.fd with
      | none => return .inr (none, source)
      | some fd =>
        match ← request (.read fd scriptBlock) with
        | .ok (byte :: bytes) =>
          let more := (fromBytes (byte :: bytes)).toList
          return .inl { source with chars := source.chars ++ more }
        | _ => return .inl { source with fd := none }) source

section

variable (evaluate : Evaluate)

/-- The commands of a script, up to its end or a command that leaves it; with the status of the
last one. -/
def runSource (mode : Mode) (source : Source) : Sh Nat := do
  let outer ← get
  let status ← iterate (fun ((status, source) : Nat × Source) => do
    match ← nextCommand source with
    | (none, _) => return .inr status
    | (some parsed, source) =>
      modify fun env => { env with documents := parsed.documents, lastLine := parsed.line }
      let mode := { mode with exits := mode.exits && parsed.isLast }
      let status ← match parsed.command with
        | .nothing => pure status
        | command => evaluate mode command
      if (← get).skip = .nothing then return .inl (status, source) else return .inr status)
    (0, source)
  modify fun env => { env with documents := outer.documents, lastLine := outer.lastLine }
  return status

/-- The commands of a text. -/
def runText (mode : Mode) (text : String) : Sh Nat :=
  runSource evaluate mode { chars := text.toList }

/-- The commands of a file. Leaving a function ends with it. -/
def runFile (fd : Descriptor) : Sh Nat := do
  let status ← runSource evaluate {} { fd := some fd, chars := [], isFile := true }
  modify fun env =>
    match env.skip with
    | .returning _ => { env with skip := .nothing }
    | _ => env
  return status

/-! ## Traps -/

/-- The action of a trap. The status is the same behind it. -/
def runTrap (action : String) : Sh Unit := do
  let env ← get
  let status := env.leaving.getD env.status
  set { env with leaving := some status }
  let _ ← runText evaluate {} action
  modify fun env => if env.skip = .returning true then env else { env with status }
  modify fun after => { after with leaving := env.leaving }

/-- The actions of the traps for signals that have come. -/
def runTraps : Sh Unit := do
  noteSignals
  let env ← get
  if !env.pending.isEmpty then
    for signal in env.pending.mergeSort (· ≤ ·) do
      if (← get).skip = .nothing then
        modify fun env => { env with pending := env.pending.filter (· ≠ signal) }
        if let some action := (← get).traps.lookup signal then
          runTrap evaluate action

/-! ## Ends -/

/-- The state after the reason for an end: a status that was asked for counts now. -/
def Env.leave (env : Env) (leave : Leave) : Env :=
  let status := match env.leaving with
    | some status => if leave = .exit || env.skip = .returning false then status else env.status
    | none => env.status
  { env with status, leaving := none, skip := .nothing, loops := 0, isTracing := false }

/-- What is to be done at the end: the action of a trap, behind which the status is the same
unless the action itself asks for another. -/
def runEndTrap : Sh Unit := do
  let env ← get
  match env.traps.lookup 0 with
  | none => return ()
  | some action =>
    set { env with
      traps := env.traps.filter (·.1 ≠ 0), skip := .nothing, leaving := some env.status }
    let leave : Leave := match ← attempt (runText evaluate {} action) with
      | .ok _ => .exit
      | .error leave => leave
    modify (·.leave leave)

/-- A script as a program: what it does, then what is to be done at its end. -/
def toProgram (body : Sh Unit) (env : Env) : Program Status := do
  let whole : Sh Unit := do
    if let .error leave ← attempt body then
      unwindRedirects 0 (← get).redirects.length
      modify (·.leave leave)
    runEndTrap evaluate
  let (_, env) ← whole env
  return Int32.ofNat env.status

/-- A child that has the state of the script, and does what `body` says. -/
def fork (role : Role) (job : Option Nat) (body : Sh Unit) : Sh (Option Pid) := fun env => do
  let child : Sh Unit := do
    enterChild role
    body
  match ← Program.fork (toProgram evaluate child env) with
  | .error _ => (fail "Cannot fork" : Sh (Option Pid)) env
  | .ok pid =>
    let parent : Sh (Option Pid) := do
      if let some number := job then
        joinJob number pid
      if let .background _ := role then
        modify fun env => { env with background := some pid }
      return some pid
    parent env

/-- What a command writes, without the newlines at its end. -/
def outputOf (command : Command) : Sh String := do
  match command with
  | .nothing => return ""
  | command =>
    match ← request .pipe with
    | .error _ => fail "Pipe call failed"
    | .ok ends =>
      let job ← newJob
      let body : Sh Unit := do
        let _ ← request (.close ends.readEnd)
        if ends.writeEnd ≠ .output then
          let _ ← request (.duplicate ends.writeEnd .output)
          let _ ← request (.close ends.writeEnd)
        let _ ← evaluate { exits := true } command
      let _ ← fork evaluate .foreground (some job) body
      let _ ← request (.close ends.writeEnd)
      let bytes ← match ← lift (Program.readAll ends.readEnd) with
        | .ok bytes => pure bytes
        | .error _ => pure []
      let _ ← request (.close ends.readEnd)
      let status ← waitForJob job
      modify fun env => { env with substituted := status }
      let kept := (bytes.reverse.dropWhile (· = 10)).reverse.filter (· ≠ 0)
      return fromBytes kept

end

end TinyShell.Machine.Sh
