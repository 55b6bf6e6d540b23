import TinyShell.Machine.Sh.Syntax
import TinyShell.Machine.Tool.Basic

/-!
# The state of a script

What a running script knows: its parameters, variables, functions, jobs and arrangements, and the
steps that read and change them.
-/

namespace TinyShell.Machine

namespace Sh

/-- A variable; one without a value is only known by its name. -/
structure Variable where
  name : String
  value : Option String := none
  exported : Bool := false
  readOnly : Bool := false
  deriving DecidableEq, Repr, Inhabited

/-- The body of a function, with the documents in it. -/
structure Function where
  body : Command
  documents : List (Nat × Word)
  deriving Inhabited

/-- What is passed over. -/
inductive Skip where
  | nothing
  /-- So many loops are left. -/
  | breaking (count : Nat)
  /-- The innermost of so many loops goes on with its next round. -/
  | continuing (count : Nat)
  /-- A function is left; with a status of its own if `given` says so. -/
  | returning (given : Bool)
  deriving DecidableEq, Repr, Inhabited

/-- Why a script is over, or the command that is being run. -/
inductive Leave where
  | exit
  | done
  | fault
  deriving DecidableEq, Repr, Inhabited

/-- Child processes that belong together, in the order of the pipeline. -/
structure Job where
  number : Nat
  processes : List (Pid × Option Death) := []
  waited : Bool := false
  deriving Repr, Inhabited

namespace Job

def isRunning (job : Job) : Bool := job.processes.any (·.2.isNone)

/-- The status of the last process. -/
def status (job : Job) : Nat :=
  match job.processes.getLast? with
  | some (_, some death) => death.code
  | _ => 0

end Job

/-- What a descriptor was before it was redirected. -/
inductive Former where
  | closed
  /-- It is closed after all: there is nothing to put back. -/
  | gone
  | aside (fd : Descriptor)
  deriving DecidableEq, Repr, Inhabited

/-- What a local declaration has covered. -/
inductive Covered where
  | former (entry : Variable)
  | absent (name : String)
  | options (former : List Char)
  deriving Repr, Inhabited

/-- The state of a script. -/
structure Env where
  /-- The name of the script in messages. -/
  name : String
  /-- The built-in command that is being run. -/
  command : Option String := none
  line : Nat := 0
  /-- The line up to which the script has been read. -/
  lastLine : Nat := 1
  parameters : List String := []
  bindings : List Variable := []
  functions : List (String × Function) := []
  aliases : List (String × String) := []
  /-- The letters of the options that are on. -/
  options : List Char := []
  status : Nat := 0
  /-- The status of the last command that stood for its output. -/
  substituted : Nat := 0
  /-- The status to end with, once the end has come. -/
  leaving : Option Nat := none
  skip : Skip := .nothing
  /-- How many loops are around. -/
  loops : Nat := 0
  /-- How many functions are around. -/
  depth : Nat := 0
  pid : Pid := 0
  /-- Whether this is a part of a script that runs as a process of its own. -/
  isChild : Bool := false
  background : Option Pid := none
  /-- The jobs, the newest first. -/
  jobs : List Job := []
  /-- What is done about signals; nothing if the text is empty. -/
  traps : List (Signal × String) := []
  /-- The signals that have come and were not dealt with. -/
  pending : List Signal := []
  /-- The signals of which it is known whether they were ignored from the start. -/
  examined : List (Signal × Bool) := []
  /-- What the local declarations have covered, innermost first. -/
  locals : List (List Covered) := []
  /-- The descriptors that were redirected, innermost first. -/
  redirects : List (List (Descriptor × Former)) := []
  /-- Where commands are traced to. -/
  trace : Descriptor := 2
  isTracing : Bool := false
  /-- The working directory by name. -/
  directory : String := ""
  /-- The output of a built-in command that is still held back, the last piece first. -/
  output : List String := []
  /-- The next parameter to look at for options, and where in it. -/
  optionIndex : Nat := 1
  optionOffset : Option Nat := none
  documents : List (Nat × Word) := []
  /-- The paths at which programs were found. -/
  tracked : List (String × String) := []
  /-- The permissions that new files do not get. -/
  mask : Nat := 18
  deriving Inhabited

end Sh

/-- A step of a script. -/
abbrev Sh := ExceptT Sh.Leave (StateT Sh.Env Program)

namespace Sh

/-- A program as a step of a script. -/
def lift {α : Type} (program : Program α) : Sh α := fun env => do return (.ok (← program), env)

/-- A call of the script. -/
def call (made : Call) : Sh made.Reply := lift (Program.call made)

/-- A call that other programs make too. -/
def request (made : Request) : Sh made.Reply := lift (Program.request made)

/-- The process is over at once. -/
def stop {α : Type} (status : Status) : Sh α := fun _ => .exit status

/-- `body` until it answers with a result. -/
def iterate {σ β : Type} (body : σ → Sh (σ ⊕ β)) (start : σ) : Sh β := fun env =>
  Program.iterate (fun (start, env) => do
    match ← body start env with
    | (.ok (.inl next), env) => return .inl (next, env)
    | (.ok (.inr value), env) => return .inr (.ok value, env)
    | (.error leave, env) => return .inr (.error leave, env)) (start, env)

/-- A step whose end is a value. -/
def attempt {α : Type} (step : Sh α) : Sh (Except Leave α) := fun env => do
  let (result, env) ← step env
  return (.ok result, env)

/-! ## Output and messages -/

/-- Text to a descriptor at once. -/
def sayTo (fd : Descriptor) (text : String) : Sh Unit := fun env => do
  let _ ← Program.writeAll fd (toBytes text)
  return (.ok (), env)

/-- Text to standard error. -/
def say (text : String) : Sh Unit := sayTo 2 text

/-- Text to standard output, held back for now. -/
def put (text : String) : Sh Unit :=
  modify fun env => { env with output := text :: env.output }

/-- What is held back goes out; whether it arrives. -/
def flush : Sh Bool := fun env => do
  let bytes := toBytes (String.join env.output.reverse)
  let env := { env with output := [] }
  if bytes.isEmpty then return (.ok true, env)
  match ← Program.writeAll .output bytes with
  | .ok () => return (.ok true, env)
  | .error _ => return (.ok false, env)

/-- A message with what it is about. -/
def complain (message : String) : Sh Unit := do
  let env ← get
  let command := match env.command with
    | some command => command ++ ": "
    | none => ""
  say (env.name ++ ": " ++ toString env.line ++ ": " ++ command ++ message ++ "\n")

/-- What is being run is over, for the reason in a message. -/
def fail {α : Type} (message : String) : Sh α := do
  modify fun env => { env with status := 2 }
  complain message
  let _ ← flush
  throw .fault

/-- What is looked for when a file is not there. -/
inductive Seeking where
  | file
  | directory
  | program
  deriving DecidableEq, Repr, Inhabited

/-- The text of an error in words that fit what was looked for. -/
def reason (seeking : Seeking) (errno : Errno) : String :=
  if errno = .enoent || errno = .enotdir then
    match seeking with
    | .file => "No such file"
    | .directory => "Directory nonexistent"
    | .program => "not found"
  else errorText errno

/-- The number that digits write; anything else is a fault. -/
def number (text : String) : Sh Nat := do
  let chars := text.toList
  let value := Tool.digitsValue chars
  if chars.isEmpty || !chars.all Char.isDigit || Int32.maxValue.toInt < value then
    fail ("Illegal number: " ++ text)
  else return value

/-! ## Options -/

/-- The options with their letters. -/
def optionNames : List (String × Char) :=
  [("errexit", 'e'), ("noglob", 'f'), ("ignoreeof", 'I'), ("interactive", 'i'), ("monitor", 'm'),
    ("noexec", 'n'), ("stdin", 's'), ("xtrace", 'x'), ("verbose", 'v'), ("vi", 'V'),
    ("emacs", 'E'), ("noclobber", 'C'), ("allexport", 'a'), ("notify", 'b'), ("nounset", 'u'),
    ("privileged", 'p'), ("nolog", '\x01'), ("debug", '\x02')]

def Env.has (env : Env) (option : Char) : Bool := env.options.contains option

/-- Whether an option is on. -/
def isOn (option : Char) : Sh Bool := do return (← get).has option

/-- An option turned on or off. -/
def setOption (option : Char) (on : Bool) : Sh Unit :=
  modify fun env =>
    let others := env.options.filter (· ≠ option)
    { env with options := if on then option :: others else others }

/-- Options take effect. Jobs can only be controlled from a terminal, which there is none of; a
child does not try. -/
def settleOptions : Sh Unit := do
  let env ← get
  if env.has 'm' && !env.isChild then
    complain "can't access tty; job control turned off"
    setOption 'm' false

/-- The letters of the options that are on. -/
def Env.optionLetters (env : Env) : String :=
  String.ofList ((optionNames.reverse.map (·.2)).filter fun c => ' ' < c && env.has c)

/-! ## Variables -/

def Env.known? (env : Env) (name : String) : Option Variable :=
  env.bindings.find? (·.name = name)

/-- The value of a variable. -/
def Env.value? (env : Env) (name : String) : Option String :=
  (env.known? name).bind (·.value)

/-- The state with another variable of a name. -/
def Env.store (env : Env) (entry : Variable) : Env :=
  { env with bindings := entry :: env.bindings.filter (·.name ≠ entry.name) }

def Env.remove (env : Env) (name : String) : Env :=
  { env with bindings := env.bindings.filter (·.name ≠ name) }

/-- A variable set to a value, or only made known. It can be exported and made read-only by
this. -/
def assign (name : String) (value : Option String) (exported : Bool := false)
    (readOnly : Bool := false) : Sh Unit := do
  unless isName name do
    fail (name ++ ": bad variable name")
  let env ← get
  let former := (env.known? name).getD { name }
  if former.readOnly then
    fail (name ++ ": is read only")
  let everything := env.has 'a'
  let env := env.store { former with
    value
    exported := former.exported || exported || everything
    readOnly := readOnly }
  if name = "OPTIND" then
    let digits := (value.getD "").toList
    let index := if digits.all Char.isDigit then max 1 (Tool.digitsValue digits) else 1
    set { env with optionIndex := index, optionOffset := none }
  else set env

/-- A variable that is not to be known any more. -/
def unset (name : String) : Sh Unit := do
  unless isName name do
    fail (name ++ ": bad variable name")
  match (← get).known? name with
  | none => return ()
  | some former =>
    if former.readOnly then
      fail (name ++ ": is read only")
    modify (·.remove name)

/-- The value that fields are split by. -/
def Env.separators (env : Env) : String := (env.value? "IFS").getD " \t\n"

/-- A text in single quotes, as it could stand in a script. -/
def quoted (text : String) : String := String.ofList (go (text.length + 1) text.toList)
where
  go : Nat → List Char → List Char
    | 0, _ => []
    | count + 1, chars =>
      let plain := chars.takeWhile (· ≠ '\'')
      let behind := chars.drop plain.length
      let marks := behind.takeWhile (· = '\'')
      let rest := behind.drop marks.length
      let first := '\'' :: plain ++ ['\'']
      if marks.isEmpty then first
      else
        first ++ '"' :: marks ++ ['"'] ++ (if rest.isEmpty then [] else go count rest)

/-- Whether a text comes before another, byte by byte. -/
def textBefore (a b : String) : Bool := !(b.toList < a.toList)

/-- The variables that a condition chooses, each on a line, in order. -/
def listVariables (lead : String) (chosen : Variable → Bool) : Sh Unit := do
  let found := ((← get).bindings.filter chosen).mergeSort fun a b => textBefore a.name b.name
  let lead := if lead.isEmpty then "" else lead ++ " "
  for entry in found do
    let value := match entry.value with
      | some value => "=" ++ quoted value
      | none => ""
    put (lead ++ entry.name ++ value ++ "\n")

/-! ## Local variables -/

/-- A variable covered until the function or command around is over, and set if it has a value. -/
def coverVariable (name : String) (value : Option String) (exported : Bool) : Sh Unit := do
  let env ← get
  let covered : Covered := match env.known? name with
    | some former => .former former
    | none => .absent name
  match env.known? name, value with
  | some _, none => pure ()
  | _, value => assign name value exported
  modify fun env =>
    match env.locals with
    | top :: rest => { env with locals := (covered :: top) :: rest }
    | [] => env

/-- What was covered comes back, and so the number of levels falls to `depth`. -/
def uncover (depth : Nat) : Sh Unit := modify fun env =>
  let levels := env.locals.take (env.locals.length - depth)
  let restored := levels.flatten.foldl (fun env covered =>
    match covered with
    | .former entry => env.store entry
    | .absent name => env.remove name
    | .options former => { env with options := former }) env
  { restored with locals := env.locals.drop levels.length }

/-! ## Paths -/

/-- What is at a path. -/
def inspect (path : String) (keep : Bool := false) : Sh (Except Errno FileStatus) :=
  call (.inspect (toText path) keep)

/-- The directories in which programs are looked for. -/
def Env.searchPath (env : Env) : List String :=
  ((env.value? "PATH").getD "").splitOn ":"

/-- The path of a name in a directory of the search path. -/
def inDirectory (directory name : String) : String :=
  if directory.isEmpty then name else directory ++ "/" ++ name

/-- The variables that programs get. -/
def Env.exported (env : Env) : List (String × String) :=
  (env.bindings.filter (·.exported)).filterMap fun entry =>
    entry.value.map fun value => (toText entry.name, toText value)

end Sh

end TinyShell.Machine
