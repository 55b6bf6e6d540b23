import TinyShell.Machine.Sh.Redirection
import TinyShell.Machine.Sh.Script
import TinyShell.Machine.Sh.Search

/-!
# Commands on the course of a script

The built-in commands that leave loops, functions and scripts, run texts and files as scripts, and
make the process another program.
-/

namespace TinyShell.Machine.Sh.Builtin

/-- Loops left, or gone on with. -/
def leaveLoops (continues : Bool) (args : List String) : Sh Nat := do
  let count ← match args with
    | [] => pure 1
    | word :: _ =>
      let count ← number word
      if count = 0 then
        fail ("Illegal number: " ++ word)
      pure count
  let count := min count (← get).loops
  if 0 < count then
    modify fun env =>
      { env with skip := if continues then .continuing count else .breaking count }
  return 0

/-- A function or a file left. -/
def returnWith (args : List String) : Sh Nat := do
  match args with
  | [] =>
    modify fun env => { env with skip := .returning false }
    return (← get).status
  | word :: _ =>
    let status ← number word
    modify fun env => { env with skip := .returning true }
    return status

/-- The end of the script. -/
def exit (args : List String) : Sh Nat := do
  if let word :: _ := args then
    let status ← number word
    modify fun env => { env with leaving := some status }
  throw .exit

/-- The file that a name stands for: one without a slash is looked for on the search path. -/
def scriptPath (name : String) : List String → Sh String
  | [] => fail (name ++ ": not found")
  | directory :: rest => do
    let path := inDirectory directory name
    match ← inspect path with
    | .ok { kind := .regular, .. } => return path
    | _ => scriptPath name rest

/-- A file opened under a descriptor that is out of the way of scripts. -/
def openScript (path : String) : Sh Descriptor := do
  let fd ← openFile path { access := .readOnly }
  if lowestAside ≤ fd then return fd
  match ← putAside fd with
  | .aside copy => return copy
  | _ => return fd

/-- The commands of a file. -/
def includeFile (evaluate : Evaluate) (args : List String) : Sh Nat := do
  let (_, words) ← readOptions [] args
  match words with
  | [] => return 0
  | name :: _ =>
    let path ← if name.contains '/' then pure name else scriptPath name (← get).searchPath
    let fd ← openScript path
    modify fun env => { env with command := some path }
    let result ← attempt (runFile evaluate fd)
    closeFd fd
    match result with
    | .ok status => return status
    | .error leave => throw leave

/-- The words as a script. -/
def eval (evaluate : Evaluate) (mode : Mode) (args : List String) : Sh Nat :=
  if args.isEmpty then pure 0
  else runText evaluate { tested := mode.tested } (" ".intercalate args)

/-! ## Programs -/

/-- The reason why none of some paths is a program; nothing is returned if one is, for the process
is that program then. -/
def becomeFirst (name : String) (argv : List String) (errno : Errno) :
    List String → Sh Errno
  | [] => return errno
  | directory :: rest => do
    let path := inDirectory directory name
    let e ← lift (Program.become (toText path) (argv.map toText))
    becomeFirst name argv (if e = .enoent || e = .enotdir then errno else e) rest

/-- The process becomes a program. -/
def become {α : Type} (argv : List String) (directories : List String) : Sh α := do
  let name := argv.headD ""
  call (.setEnvironment (← get).exported)
  let errno ← if name.contains '/' then lift (Program.become (toText name) (argv.map toText))
    else becomeFirst name argv .enoent directories
  let missing := [Errno.eloop, .enametoolong, .enoent, .enotdir].contains errno
  modify fun env => { env with status := if missing then 127 else 126 }
  complain (name ++ ": " ++ reason .program errno)
  throw .done

/-- A child that is a program. -/
def startProgram (argv : List String) (directories : List String) : Sh Nat := do
  let job ← newJob
  let env ← get
  let child : Program Status := do
    let (_, env) ← (become argv directories : Sh Unit) env
    return Int32.ofNat env.status
  match ← lift (Program.fork child) with
  | .error _ => fail "Cannot fork"
  | .ok pid =>
    joinJob job pid
    waitForJob job

/-- The process becomes another program, if there are words for one. -/
def exec (args : List String) : Sh Nat := do
  let (_, words) ← readOptions [] args
  if words.isEmpty then return 0
  else become words (← get).searchPath

end TinyShell.Machine.Sh.Builtin
