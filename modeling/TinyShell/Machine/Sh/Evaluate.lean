import TinyShell.Machine.Sh.Builtin

/-!
# Running commands

What the commands of a script do, by their form, and with which status each of them ends.
-/

namespace TinyShell.Machine.Sh

/-! ## Loops and functions -/

/-- How a loop goes on. -/
inductive Course where
  | go
  | next
  | leave
  deriving DecidableEq, Repr, Inhabited

/-- How the loop around goes on, as far as something is passed over. -/
def loopCourse : Sh Course := do
  match (← get).skip with
  | .nothing => return .go
  | .returning _ => return .leave
  | .breaking count =>
    modify fun env => { env with skip := if count ≤ 1 then .nothing else .breaking (count - 1) }
    return .leave
  | .continuing count =>
    modify fun env => { env with skip := if count ≤ 1 then .nothing else .continuing (count - 1) }
    return if count ≤ 1 then .next else .leave

/-- What is done in a loop. -/
def inLoop {α : Type} (step : Sh α) : Sh α := do
  modify fun env => { env with loops := env.loops + 1 }
  let value ← step
  modify fun env => { env with loops := env.loops - 1 }
  return value

/-- How many functions can be around. -/
def maxDepth : Nat := 1000

section

variable (evaluate : Evaluate)

/-- A function called with parameters. -/
def callFunction (mode : Mode) (function : Function) (args : List String) : Sh Unit := do
  let outer ← get
  if maxDepth ≤ outer.depth then
    fail ("Maximum function recursion depth (" ++ toString maxDepth ++ ") reached")
  set { outer with
    parameters := args, optionIndex := 1, optionOffset := none, loops := 0
    depth := outer.depth + 1, locals := [] :: outer.locals, documents := function.documents }
  let result ← attempt do
    let _ ← evaluate { tested := mode.tested } function.body
    uncover outer.locals.length
  modify fun env =>
    { env with
      parameters := outer.parameters, optionIndex := outer.optionIndex
      optionOffset := outer.optionOffset, loops := outer.loops, depth := outer.depth
      documents := outer.documents }
  if let .error leave := result then
    throw leave
  modify fun env =>
    match env.skip with
    | .returning _ => { env with skip := .nothing }
    | _ => env

/-- A loop with a condition. -/
def runLoop (mode : Mode) (negated : Bool) (test body : Command) : Sh Nat :=
  inLoop <| iterate (fun status : Nat => do
    let condition ← evaluate { tested := true } test
    let returning := (← get).skip = .returning true
    match ← loopCourse with
    | .leave => return .inr (if returning then condition else status)
    | .next => return .inl status
    | .go =>
      if (condition = 0) = negated then return .inr status
      else
        let status ← evaluate { tested := mode.tested } body
        match ← loopCourse with
        | .leave => return .inr status
        | _ => return .inl status) 0

/-- A loop over texts. -/
def runEach (mode : Mode) (name : String) (body : Command) (texts : List String) : Sh Nat :=
  inLoop <| iterate (fun ((status, texts) : Nat × List String) => do
    match texts with
    | [] => return .inr status
    | text :: rest =>
      assign name (some text)
      let status ← evaluate { tested := mode.tested } body
      match ← loopCourse with
      | .leave => return .inr status
      | _ => return .inl (status, rest)) (0, texts)

/-- Whether one of some patterns matches a text. -/
def anyMatches (text : String) : List Word → Sh Bool
  | [] => return false
  | pattern :: rest => do
    let parts ← expandPattern (outputOf evaluate) pattern
    if matchesAll parts text.toList then return true else anyMatches text rest

/-- The body of the first case that a text belongs to. -/
def chosenCase (text : String) : List Case → Sh Command
  | [] => return .nothing
  | .mk patterns body :: rest => do
    if ← anyMatches evaluate text patterns then return body else chosenCase text rest

/-! ## Children -/

/-- Whether something is to be done on a signal or at the end. -/
def Env.hasTraps (env : Env) : Bool := env.traps.any (·.2 ≠ "")

/-- The stages of a pipeline, each a child; `input` is where the first of them reads from, if
there were others before it. -/
def startStages (mode : Mode) (background : Bool) (job : Nat) :
    (first : Bool) → (input : Option Descriptor) → List Command → Sh Unit
  | _, _, [] => return ()
  | first, input, stage :: rest => do
    let ends ← if rest.isEmpty then pure none
      else match ← request .pipe with
        | .ok ends => pure (some ends)
        | .error _ => fail "Pipe call failed"
    let body : Sh Unit := do
      if let some ends := ends then
        closeFd ends.readEnd
      if let some fd := input then
        if 0 < fd then
          let _ ← request (.duplicate fd .input)
          closeFd fd
      if let some ends := ends then
        if 1 < ends.writeEnd then
          let _ ← request (.duplicate ends.writeEnd .output)
          closeFd ends.writeEnd
      let _ ← evaluate { mode with exits := true } stage
    let _ ← fork evaluate (if background then .background first else .foreground) (some job) body
    if let some fd := input then
      closeFd fd
    if let some ends := ends then
      closeFd ends.writeEnd
    startStages mode background job false (ends.map (·.readEnd)) rest

/-- Commands joined by pipes. -/
def runPipeline (mode : Mode) (background : Bool) (stages : List Command) : Sh Nat := do
  let job ← newJob
  startStages evaluate mode background job true none stages
  if background then return 0 else waitForJob job

/-- A command in a state of its own. -/
def runSubshell (mode : Mode) (background : Bool) (body : Command) (redirects : List Redirect) :
    Sh Nat := do
  let prepared ← Redirection.prepare (outputOf evaluate) redirects
  let here (mode : Mode) : Sh Unit := do
    redirect (outputOf evaluate) false prepared
    let _ ← evaluate mode body
  if !background && mode.exits && !(← get).hasTraps then
    here mode
    return (← get).status
  else
    let job ← newJob
    let mode := { exits := true, tested := mode.tested && !background }
    let _ ← fork evaluate (if background then .background true else .foreground) (some job)
      (here mode)
    if background then return 0 else waitForJob job

/-! ## Simple commands -/

/-- A simple command whose first words are known. -/
structure Plan where
  /-- The words, and which of them the command begins with. -/
  words : List String
  start : Nat := 0
  /-- The words that are not expanded yet. -/
  rest : List Word
  found : Option Found := none
  /-- Whether the command is one at whose faults the script ends; nothing if it is not built
  in. -/
  special : Option Bool := none
  /-- Whether functions are passed over. -/
  plain : Bool := false
  /-- The search path if it is not that of the script. -/
  directories : Option (List String) := none
  isExec : Bool := false
  takesSettings : Bool := false
  deriving Inhabited

namespace Plan

/-- The command's own words. -/
def argv (plan : Plan) : List String := plan.words.drop plan.start

/-- One more word, if there is one. -/
def fill (substitute : Command → Sh String) (plan : Plan) : (rest : List Word) → Sh Plan
  | [] => return { plan with rest := [] }
  | word :: rest => do
    match ← expandFields substitute word with
    | [] => fill substitute plan rest
    | fields => return { plan with words := plan.words ++ fields, rest }

/-- What a name stands for without a search for programs. -/
def known (name : String) (plain : Bool) : Sh (Option Found) := do
  match (← get).functions.lookup name, plain with
  | some function, false => return some (.function function)
  | _, _ => return if Builtin.isBuiltin name then some .builtin else none

/-- The plan for what stands behind `command`, whose options are passed over; nothing if `command`
itself is to be run. `count` bounds the words. -/
def behindCommand (substitute : Command → Sh String) : (count : Nat) → Plan → (place : Nat) →
    Sh (Option Plan)
  | 0, _, _ => return none
  | count + 1, plan, place => do
    let plan ← if place < plan.words.length then pure plan else plan.fill substitute plan.rest
    match (plan.words[place]?).map String.toList with
    | none => return none
    | some ['-', '-'] =>
      let plan ← if place + 1 < plan.words.length then pure plan
        else plan.fill substitute plan.rest
      return if place + 1 < plan.words.length then some { plan with start := place + 1 } else none
    | some ('-' :: c :: letters) =>
      if (c :: letters).all (· = 'p') then
        behindCommand substitute count { plan with directories := some standardPath } (place + 1)
      else return none
    | some _ => return some { plan with start := place }

/-- The plan with what its first word stands for. `count` bounds how often `command` is met. -/
def resolve (substitute : Command → Sh String) : (count : Nat) → Plan → Sh Plan
  | 0, plan => return plan
  | count + 1, plan => do
    let name := plan.argv.headD ""
    let found ← known name plan.plain
    let plan := { plan with found }
    match found with
    | some .builtin =>
      let plan := { plan with
        special := some (plan.special.getD (Builtin.isSpecialName name))
        isExec := name = "exec", takesSettings := Builtin.takesSettings name }
      if name = "command" then
        let size := plan.words.length + plan.rest.length + 1
        match ← behindCommand substitute size plan (plan.start + 1) with
        | some plan => resolve substitute count { plan with plain := true }
        | none => return plan
      else return plan
    | _ => return plan

/-- The words that are still to be expanded. -/
def complete (substitute : Command → Sh String) (plan : Plan) : List Word → Sh Plan
  | [] => return { plan with rest := [] }
  | word :: rest => do
    let fields ← if plan.takesSettings && (assignmentLength? word).isSome then
        pure [← expandSetting substitute word]
      else expandFields substitute word
    complete substitute { plan with words := plan.words ++ fields } rest

/-- The plan for the words of a command. -/
def ofWords (substitute : Command → Sh String) (words : List Word) : Sh Plan := do
  let plan ← fill substitute { words := [], rest := [] } words
  if plan.words.isEmpty then return plan
  let plan ← plan.resolve substitute (words.length + plan.words.length + 1)
  complete substitute plan plan.rest

end Plan

/-- Variables set by a command; they are covered by these values if `covers` says so. The texts
come back. -/
def runAssignments (covers exports : Bool) : List Word → Sh (List String)
  | [] => return []
  | word :: rest => do
    let text ← expandSetting (outputOf evaluate) word
    let (name, value) := Builtin.splitSetting text
    if covers then
      coverVariable name value true
    else assign name value exports
    return text :: (← runAssignments covers exports rest)

/-- A line about a command that is going to be run. -/
def traceCommand (texts : List String) : Sh Unit := do
  let env ← get
  if env.has 'x' && !env.isTracing then
    sayTo env.trace ((env.value? "PS4").getD "" ++ " ".intercalate texts ++ "\n")

/-- What a command is run as, once its redirections and variables are in place. A fault of a
command that is not special is only its own. -/
def runPlan (mode : Mode) (plan : Plan) : Sh Unit := do
  let argv := plan.argv
  let name := argv.headD ""
  let args := argv.drop 1
  let directories := plan.directories.getD (← get).searchPath
  let found ← if argv.isEmpty then pure Found.builtin
    else match plan.found with
      | some .builtin => pure Found.builtin
      | _ => search name plan.plain plan.directories
  match found with
  | .builtin =>
    if argv.isEmpty then
      modify fun env => { env with status := env.substituted }
    else
      match ← attempt (runBuiltin evaluate mode name args) with
      | .ok () => pure ()
      | .error leave =>
        unless leave = .fault && plan.special ≠ some true do
          throw leave
    collectEnded
  | .function function =>
    callFunction evaluate mode function args
    collectEnded
  | .program _ =>
    if mode.exits && !(← get).hasTraps then
      Builtin.become argv directories
    else
      let status ← Builtin.startProgram argv directories
      modify fun env => { env with status }
  | .missing errno =>
    complain (name ++ ": " ++ reason .program errno)
    modify fun env => { env with status := 127 }
    if plan.special = some true then
      throw .fault

/-- A simple command. -/
def runSimple (mode : Mode) (line : Nat) (assignments words : List Word)
    (redirects : List Redirect) : Sh Nat := do
  modify fun env => { env with line, substituted := 0 }
  let substitute := outputOf evaluate
  let plan ← Plan.ofWords substitute words
  let covers := !plan.words.isEmpty && plan.special ≠ some true
  let exports := plan.isExec && 1 < plan.argv.length
  let outer ← get
  if covers then
    modify fun env => { env with locals := [] :: env.locals }
  modify fun env => { env with trace := 2 }
  let prepared ← Redirection.prepare substitute redirects
  unless prepared.isEmpty do
    pushRedirects
  if ← redirectSafely substitute prepared then
    if !prepared.isEmpty then
      modify fun env =>
        match env.redirects.head?.bind (·.lookup 2) with
        | some (.aside fd) => { env with trace := fd }
        | _ => env
    let texts ← runAssignments evaluate covers exports assignments
    traceCommand (texts ++ plan.words)
    runPlan evaluate mode plan
  else
    modify fun env => { env with status := 2 }
    if plan.special = some true then
      throw .fault
  unless prepared.isEmpty do
    if outer.redirects.length < (← get).redirects.length then
      popRedirects plan.isExec
  let levels := (← get).redirects.length
  unwindRedirects outer.redirects.length levels
  uncover outer.locals.length
  return (← get).status

/-! ## All commands -/

/-- What a command does; its status, unless that is the one before. Whether a failure of it counts
comes with it. -/
def runForm (mode : Mode) : Command → Sh (Option Nat × Bool)
  | .nothing => return (none, false)
  | .simple line assignments words redirects => do
    return (some (← runSimple evaluate mode line assignments words redirects), true)
  | .pipeline background stages => do
    return (some (← runPipeline evaluate mode background stages), true)
  | .background line body redirects => do
    modify fun env => { env with line }
    return (some (← runSubshell evaluate mode true body redirects), true)
  | .subshell line body redirects => do
    modify fun env => { env with line }
    return (some (← runSubshell evaluate mode false body redirects), true)
  | .redirected line body redirects => do
    modify fun env => { env with line }
    let substitute := outputOf evaluate
    let prepared ← Redirection.prepare substitute redirects
    pushRedirects
    let status ← if ← redirectSafely substitute prepared then
        evaluate { tested := mode.tested } body
      else pure 2
    popRedirects false
    return (some status, false)
  | .sequence first second => do
    let _ ← evaluate { tested := mode.tested } first
    if (← get).skip = .nothing then return (some (← evaluate mode second), false)
    else return (none, false)
  | .and first second => do
    let status ← evaluate { tested := true } first
    if status = 0 && (← get).skip = .nothing then
      return (some (← evaluate mode second), false)
    else return (none, false)
  | .or first second => do
    let status ← evaluate { tested := true } first
    if status ≠ 0 && (← get).skip = .nothing then
      return (some (← evaluate mode second), false)
    else return (none, false)
  | .not body => do
    let status ← evaluate { tested := true } body
    if (← get).skip = .nothing then return (some (if status = 0 then 1 else 0), false)
    else return (none, false)
  | .branch test yes no => do
    let status ← evaluate { tested := true } test
    if (← get).skip ≠ .nothing then return (none, false)
    else if status = 0 then return (some (← evaluate mode yes), false)
    else
      match no with
      | .nothing => return (some 0, false)
      | no => return (some (← evaluate mode no), false)
  | .loop negated test body => return (some (← runLoop evaluate mode negated test body), false)
  | .each line name words body => do
    modify fun env => { env with line }
    let texts ← expandWords (outputOf evaluate) words
    return (some (← runEach evaluate mode name body texts), false)
  | .select line word cases => do
    modify fun env => { env with line }
    let text ← expandText (outputOf evaluate) word
    match ← chosenCase evaluate text cases with
    | .nothing => return (some 0, false)
    | body => return (some (← evaluate mode body), false)
  | .function _ name body => do
    modify fun env =>
      let function : Function := { body, documents := env.documents }
      { env with functions := (name, function) :: env.functions.filter (·.1 ≠ name) }
    return (some 0, false)

end

/-- A process that needs more room than there is. -/
def overflow {α : Type} : Sh α := do
  let _ ← call (.kill (← request .processId) Signal.segmentFault)
  stop 139

/-- How commands are run that are nested at most `fuel` deep. -/
def evaluateWithin : (fuel : Nat) → Evaluate
  | 0, _, _ => overflow
  | fuel + 1, mode, command => do
    let evaluate := evaluateWithin fuel
    if ← isOn 'n' then return (← get).status
    let counts ← match command with
      | .nothing => pure false
      | command => do
        runTraps evaluate
        let (status, counts) ← runForm evaluate mode command
        if let some status := status then
          modify fun env => { env with status }
        pure (counts && status.any (· ≠ 0))
    runTraps evaluate
    if counts && !mode.tested && (← isOn 'e') then
      throw .done
    return (← get).status

/-- How deep commands can be nested. -/
def maxNesting : Nat := 100000

/-- How commands are run. -/
def evaluate : Evaluate := evaluateWithin maxNesting

end TinyShell.Machine.Sh
