import TinyShell.Machine.Sh.Builtin.Directory
import TinyShell.Machine.Sh.Evaluate

/-!
# The script tool

Scripts from files, from standard input or from the command line, as a program.
-/

namespace TinyShell.Machine.Sh

/-- What the command line asks for. -/
structure ScriptCall where
  /-- Whether the first operand is the script itself. -/
  isText : Bool := false
  operands : List String := []
  deriving Inhabited

/-- The letters of options in one word of the command line, with the words behind. -/
def startLetters (on : Bool) (request : ScriptCall) : List Char → Sh ScriptCall
  | [] => return request
  | 'c' :: letters => startLetters on { request with isText := true } letters
  | 'l' :: letters => startLetters on request letters
  | 'o' :: letters => do
    match request.operands.head? with
    | some name => Builtin.setNamed (some name) on
    | none => do
      -- Before the command line has been read to its end, all options count as turned on.
      let options := (← get).options
      modify fun env => { env with options := optionNames.map (·.2) }
      Builtin.setNamed none on
      let _ ← flush
      modify fun env => { env with options }
    startLetters on { request with operands := request.operands.drop 1 } letters
  | c :: letters => do
    if optionNames.any (·.2 = c) then
      setOption c on
      startLetters on request letters
    else fail ("Illegal option -" ++ c.toString)

/-- The command line. `count` bounds the words. -/
def startWords : (count : Nat) → ScriptCall → Sh ScriptCall
  | 0, request => return request
  | count + 1, request => do
    match request.operands with
    | [] => return request
    | word :: rest =>
      let request' := { request with operands := rest }
      match word.toList with
      | ['-'] | ['-', '-'] => return request'
      | '-' :: letters => startWords count (← startLetters true request' letters)
      | '+' :: letters => startWords count (← startLetters false request' letters)
      | _ => return request

/-- The variables that a script begins with. -/
def startVariables : Sh Unit := do
  for (name, value) in ← call .environment do
    let (name, value) := (fromText name, fromText value)
    if isName name then
      modify (·.store { name, value := some value, exported := true })
  let standard : List (String × String) :=
    [("OPTIND", "1"), ("PS1", "# "), ("PS2", "> "), ("PS4", "+ "), ("IFS", " \t\n"),
      ("PPID", toString (← call .parentId))]
  for (name, value) in standard do
    modify (·.store { name, value := some value })
  if ((← get).known? "PATH").isNone then
    let path := "/usr/local/sbin:/usr/local/bin:/usr/sbin:/usr/bin:/sbin:/bin"
    modify (·.store { name := "PATH", value := some path })

/-- The name of the working directory: the one that was handed over, if it is right. -/
def startDirectory : Sh Unit := do
  let here ← Builtin.physical
  let given := ((← get).value? "PWD").getD ""
  let isRight : Bool ← if given.startsWith "/" then
      match ← inspect given, ← inspect "." with
      | .ok a, .ok b => pure (a.identity = b.identity)
      | _, _ => pure false
    else pure false
  let directory := if isRight then given else here
  modify fun env => { env with directory }
  assign "PWD" (some directory) true

/-- A script that starts with the words of its command line. -/
def start (argv : List String) : Sh Unit := do
  startVariables
  startDirectory
  let request ← startWords argv.length { operands := argv.drop 1 }
  if request.isText && request.operands.isEmpty then
    fail "-c requires an argument"
  if request.operands.isEmpty then
    setOption 's' true
  if request.isText then
    let text := request.operands.headD ""
    modify fun env =>
      { env with
        name := (request.operands[1]?).getD env.name, parameters := request.operands.drop 2 }
    settleOptions
    let readsMore ← isOn 's'
    let _ ← runText evaluate { exits := !readsMore } text
    if readsMore then
      let _ ← runFile evaluate .input
  else if ← isOn 's' then
    modify fun env => { env with parameters := request.operands }
    settleOptions
    let _ ← runFile evaluate .input
  else
    let path := request.operands.headD ""
    let fd ← Builtin.openScript path
    modify fun env => { env with name := path, parameters := request.operands.drop 1 }
    settleOptions
    let _ ← runFile evaluate fd

/-- The tool as a program. -/
def tool (argv : List String) : Program Status := do
  let argv := argv.map fromText
  let pid ← Program.request .processId
  toProgram evaluate (start argv) { name := argv.headD "sh", pid }

end TinyShell.Machine.Sh
