import TinyShell.Machine.Sh.Builtin.Basic
import TinyShell.Machine.Sh.Field

/-!
# Commands on variables

The built-in commands that set variables, parameters and options, or take them away.
-/

namespace TinyShell.Machine.Sh.Builtin

/-- The name and the value that a word sets. -/
def splitSetting (word : String) : String × Option String :=
  let name := word.toList.takeWhile (· ≠ '=')
  let rest := word.toList.drop name.length
  (String.ofList name, if rest.isEmpty then none else some (String.ofList (rest.drop 1)))

/-- Variables that get a mark: they are exported, or read-only from then on. -/
def mark (command : String) (args : List String) : Sh Nat := do
  let readOnly := command = "readonly"
  let (options, names) ← readOptions [('p', false)] args
  if !options.isEmpty || names.isEmpty then
    listVariables command fun entry => if readOnly then entry.readOnly else entry.exported
    return 0
  for word in names do
    let (name, value) := splitSetting word
    match value, (← get).known? name with
    | none, some former =>
      modify (·.store { former with
        exported := former.exported || !readOnly, readOnly := former.readOnly || readOnly })
    | value, _ => assign name value (!readOnly) readOnly
  return 0

/-- Variables that have other values until the function is over. -/
def localVariables (args : List String) : Sh Nat := do
  if (← get).locals.isEmpty then
    fail "not in a function"
  for word in args do
    if word = "-" then
      modify fun env =>
        match env.locals with
        | top :: rest => { env with locals := (.options env.options :: top) :: rest }
        | [] => env
    else
      let (name, value) := splitSetting word
      coverVariable name value false
  return 0

/-- Variables or functions that are not to be known any more. -/
def unsetNames (args : List String) : Sh Nat := do
  let (options, names) ← readOptions [('v', false), ('f', false)] args
  let functions := (options.getLast?.map (·.1)) = some 'f'
  for name in names do
    if functions then
      modify fun env => { env with functions := env.functions.filter (·.1 ≠ name) }
    else unset name
  return 0

/-! ## Options and parameters -/

/-- An option by its name; without a name the options are listed. -/
def setNamed (name : Option String) (on : Bool) : Sh Unit := do
  match name with
  | none =>
    if on then
      put "Current option settings\n"
      for (name, letter) in optionNames do
        let blanks := String.ofList (List.replicate (16 - name.length) ' ')
        put (name ++ blanks ++ (if ← isOn letter then "on" else "off") ++ "\n")
    else
      for (name, letter) in optionNames do
        put ("set " ++ (if ← isOn letter then "-o " else "+o ") ++ name ++ "\n")
  | some name =>
    match optionNames.lookup name with
    | some letter => setOption letter on
    | none => fail ("Illegal option -o " ++ name)

/-- The letters of options in one word, with the words behind. -/
def setLetters (on : Bool) (rest : List String) : List Char → Sh (List String)
  | [] => return rest
  | 'o' :: letters => do
    setNamed rest.head? on
    setLetters on (rest.drop 1) letters
  | c :: letters => do
    if optionNames.any (·.2 = c) then
      setOption c on
      setLetters on rest letters
    else fail ("Illegal option -" ++ c.toString)

/-- Options turned on and off; what is left, and whether it is the parameters even if there are
none. `count` bounds the words. -/
def setWords : (count : Nat) → List String → Sh (List String × Bool)
  | 0, words => return (words, false)
  | _, [] => return ([], false)
  | count + 1, word :: rest =>
    match word.toList with
    | ['-'] => do
      setOption 'x' false
      setOption 'v' false
      return (rest, false)
    | ['-', '-'] => return (rest, true)
    | '-' :: letters => do
      let rest ← setLetters true rest letters
      setWords count rest
    | '+' :: letters => do
      let rest ← setLetters false rest letters
      setWords count rest
    | _ => return (word :: rest, false)

/-- New parameters. -/
def setParameters (parameters : List String) : Sh Unit :=
  modify fun env => { env with parameters, optionIndex := 1, optionOffset := none }

/-- Options and parameters. -/
def setAll (args : List String) : Sh Nat := do
  if args.isEmpty then
    listVariables "" fun entry => entry.value.isSome
  else
    let (parameters, always) ← setWords (args.length + 1) args
    settleOptions
    if always || !parameters.isEmpty then
      setParameters parameters
  return 0

/-- The first parameters dropped. -/
def shift (args : List String) : Sh Nat := do
  let count ← match args with
    | [] => pure 1
    | word :: _ => number word
  let env ← get
  if env.parameters.length < count then
    fail "can't shift that many"
  setParameters (env.parameters.drop count)
  return 0

/-! ## Options of scripts -/

/-- What is found where the next option of a script should be. -/
structure FoundOption where
  letter : Char := '?'
  value : Option String := none
  /-- The first word that was not looked at, and where to go on in the one before it. -/
  index : Nat
  offset : Option Nat := none
  message : Option String := none
  ended : Bool := false

/-- The next option in some words. -/
def findOption (known : String) (words : List String) (index : Nat) (offset : Option Nat) :
    FoundOption :=
  let word (n : Nat) : List Char := ((words[n - 1]?).getD "").toList
  let current := match offset with
    | some offset => if 1 < index then (word (index - 1)).drop offset else []
    | none => []
  let next := word index
  let step : Option (List Char × Nat) :=
    if !current.isEmpty then some (current, index)
    else
      match next with
      | '-' :: c :: rest =>
        if words.length < index then none else some (c :: rest, index + 1)
      | _ => none
  match step with
  | none => { index, ended := true }
  | some (['-'], next) =>
    if current.isEmpty then { index := next, ended := true }
    else illegal '-' [] next
  | some ([], next) => { index := next, ended := true }
  | some (c :: rest, next) => go c rest next
where
  /-- Where to go on behind the characters that are left of a word. -/
  behind (rest : List Char) (next : Nat) : Option Nat :=
    some (((words[next - 2]?).getD "").length - rest.length)
  illegal (c : Char) (rest : List Char) (next : Nat) : FoundOption :=
    let quiet := known.startsWith ":"
    { index := next
      offset := behind rest next
      value := if quiet then some c.toString else none
      message := if quiet then none else some ("Illegal option -" ++ c.toString) }
  go (c : Char) (rest : List Char) (next : Nat) : FoundOption :=
    let quiet := known.startsWith ":"
    let from_ := known.toList.dropWhile (· ≠ c)
    match from_ with
    | _ :: ':' :: _ =>
      if c = ':' then illegal c rest next
      else if !rest.isEmpty then { letter := c, value := some (String.ofList rest), index := next }
      else
        match words[next - 1]? with
        | some value => { letter := c, value := some value, index := next + 1 }
        | none =>
          if quiet then { letter := ':', value := some c.toString, index := next }
          else { index := next, message := some ("No arg for -" ++ c.toString ++ " option") }
    | _ :: _ =>
      if c = ':' then illegal c rest next
      else { letter := c, value := some "", index := next, offset := behind rest next }
    | [] => illegal c rest next

/-- The next option of the script, put into variables. -/
def getopts (args : List String) : Sh Nat := do
  match args with
  | known :: name :: words =>
    let env ← get
    let words := if words.isEmpty then env.parameters else words
    let (index, offset) := if words.length + 1 < env.optionIndex then (1, none)
      else (env.optionIndex, env.optionOffset)
    let found := findOption known words index offset
    if let some message := found.message then
      say (message ++ "\n")
    unless found.ended do
      match found.value with
      | some value => assign "OPTARG" (some value)
      | none => unset "OPTARG"
    assign "OPTIND" (some (toString found.index))
    assign name (some found.letter.toString)
    modify fun env => { env with optionIndex := found.index, optionOffset := found.offset }
    return if found.ended then 1 else 0
  | _ => fail "Usage: getopts optstring var [arg...]"

/-! ## Input -/

/-- A line of input as bits: a backslash shields the character behind it if `shields` says so.
Whether the line was complete comes with it. -/
def readBits (shields : Bool) : Sh (List Bit × Bool) :=
  iterate (fun ((bits, shielded) : List Bit × Bool) => do
    match ← request (.read .input 1) with
    | .ok (byte :: _) =>
      let c := Char.ofNat byte.toNat
      if byte = 0 then return .inl (bits, shielded)
      else if shielded then
        return .inl (if c = '\n' then .region false :: bits
          else .region false :: .char c true false :: bits, false)
      else if shields && c = '\\' then return .inl (bits, true)
      else if c = '\n' then return .inr (bits.reverse, true)
      else return .inl (.char c false true :: bits, false)
    | _ => return .inr (bits.reverse, false)) ([.region false], false)

/-- Variables set to the fields that are left; the last ones are empty if there are too few. -/
def assignFields : List String → List (List Bit) → Sh Unit
  | [], _ => return ()
  | name :: names, fields => do
    assign name (some (bitsText (fields.head?.getD [])))
    assignFields names (fields.drop 1)

/-- A line of input, field by field. -/
def read (args : List String) : Sh Nat := do
  let (options, names) ← readOptions [('p', true), ('r', false)] args
  if names.isEmpty then
    fail "arg count"
  let (bits, complete) ← readBits (!options.any (·.1 = 'r'))
  let separators := (← get).separators
  assignFields names (splitFields separators (some names.length) bits)
  return if complete then 0 else 1

/-! ## Aliases -/

/-- Aliases set and shown. -/
def aliasWords (args : List String) : Sh Nat := do
  let line (name value : String) : String := name ++ "=" ++ quoted value ++ "\n"
  if args.isEmpty then
    for (name, value) in (← get).aliases do
      put (line name value)
    return 0
  let mut status := 0
  for word in args do
    match word.toList with
    | c :: rest =>
      let name := String.ofList (c :: rest.takeWhile (· ≠ '='))
      if rest.contains '=' then
        let value := (word.drop (name.length + 1)).toString
        modify fun env =>
          { env with aliases := env.aliases.filter (·.1 ≠ name) ++ [(name, value)] }
      else
        match (← get).aliases.lookup word with
        | some value => put (line word value)
        | none =>
          say ("alias: " ++ word ++ " not found\n")
          status := 1
    | [] =>
      say "alias:  not found\n"
      status := 1
  return status

/-- Aliases taken away. -/
def unaliasWords (args : List String) : Sh Nat := do
  let (options, names) ← readOptions [('a', false)] args
  if !options.isEmpty then
    modify fun env => { env with aliases := [] }
    return 0
  let mut status := 0
  for name in names do
    if ((← get).aliases.lookup name).isNone then
      say ("unalias: " ++ name ++ " not found\n")
      status := 1
    modify fun env => { env with aliases := env.aliases.filter (·.1 ≠ name) }
  return status

end TinyShell.Machine.Sh.Builtin
