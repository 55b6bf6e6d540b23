import TinyShell.Machine.Tool.Basic

/-!
# Options

The options of a tool: letters behind a dash, and names behind two dashes, which may be cut short
as long as they say what is meant.
-/

namespace TinyShell.Machine.Tool

open Text (Bytes)

/-- What comes with an option. -/
inductive Takes where
  | nothing
  | value
  /-- A value in the same word; without one it stands for another value. -/
  | optional (otherwise : String)
  deriving DecidableEq, Inhabited

/-- The options that a tool knows. -/
structure Grammar where
  /-- The letters that stand alone, and those with a value. -/
  plain : String
  valued : String := ""
  /-- Names, each with the option that it is another word for. -/
  names : List (String × String × Takes) := []
  /-- Whether the first operand ends the options. -/
  ordered : Bool := false
  /-- The words that are operands though they start with a dash. -/
  operand : String → Bool := fun _ => false
  /-- An option with its value that the first of some words are short for, with the words that are
  left. -/
  short : List String → Option ((String × String) × List String) := fun _ => none

/-- Options as they were given, each with its value, and the operands. -/
structure Arguments where
  options : List (String × String) := []
  operands : List String := []
  deriving Inhabited

/-- A command line that a tool does not take. -/
inductive UsageError where
  | invalidLetter (letter : Char)
  | letterWithoutValue (letter : Char)
  | unrecognized (word : String)
  | ambiguous (word : String) (names : List String)
  | unwantedValue (name : String)
  | nameWithoutValue (name : String)

/-- An option letter in a message: its first byte alone. -/
def letterByte (letter : Char) : Bytes := (Text.encode letter.toString).take 1

/-- What is said of a command line that a tool does not take. -/
def UsageError.message : UsageError → Bytes
  | invalidLetter letter => Text.encode "invalid option -- '" ++ letterByte letter ++ [0x27]
  | letterWithoutValue letter =>
    Text.encode "option requires an argument -- '" ++ letterByte letter ++ [0x27]
  | unrecognized word => Text.encode ("unrecognized option '" ++ word ++ "'")
  | ambiguous word names =>
    Text.encode ("option '" ++ word ++ "' is ambiguous; possibilities:" ++
      String.join (names.map fun name => " '--" ++ name ++ "'"))
  | unwantedValue name => Text.encode ("option '--" ++ name ++ "' doesn't allow an argument")
  | nameWithoutValue name => Text.encode ("option '--" ++ name ++ "' requires an argument")

namespace Arguments

def has (arguments : Arguments) (option : String) : Bool :=
  arguments.options.any (·.1 = option)

/-- The value of an option where it was given last. -/
def value? (arguments : Arguments) (option : String) : Option String :=
  (arguments.options.reverse.find? (·.1 = option)).map (·.2)

/-- The one of some options that was given last, with its value. -/
def lastOf? (arguments : Arguments) (options : List String) : Option (String × String) :=
  arguments.options.reverse.find? fun (option, _) => options.contains option

def addOption (arguments : Arguments) (option value : String) : Arguments :=
  { arguments with options := arguments.options ++ [(option, value)] }

def addOperand (arguments : Arguments) (operand : String) : Arguments :=
  { arguments with operands := arguments.operands ++ [operand] }

/-- The operands of a tool; without any it reads standard input. -/
def inputs (arguments : Arguments) : List String :=
  if arguments.operands.isEmpty then ["-"] else arguments.operands

/-- What is left of a command line: the words after some options, or what is wrong with them. -/
abbrev Rest := Except UsageError (List String)

/-- The letters of one word of options, with the words after it that were not used for a value. -/
def parseLetters (grammar : Grammar) (arguments : Arguments) :
    List Char → List String → Arguments × Rest
  | [], rest => (arguments, .ok rest)
  | letter :: letters, rest =>
    if grammar.plain.contains letter then
      parseLetters grammar (arguments.addOption letter.toString "") letters rest
    else if grammar.valued.contains letter then
      if letters.isEmpty then
        match rest with
        | [] => (arguments, .error (.letterWithoutValue letter))
        | value :: rest => (arguments.addOption letter.toString value, .ok rest)
      else
        (arguments.addOption letter.toString (String.ofList letters), .ok rest)
    else (arguments, .error (.invalidLetter letter))

/-- An option given by its name. A name cut short stands for the one that it begins, or for several
that mean the same. -/
def parseName (grammar : Grammar) (arguments : Arguments) (word : String) (rest : List String) :
    Except UsageError (Arguments × List String) :=
  let chars := word.toList.drop 2
  let given := String.ofList (chars.takeWhile (· ≠ '='))
  let attached := chars.dropWhile (· ≠ '=')
  let known := grammar.names ++ [("help", "help", .nothing), ("version", "version", .nothing)]
  let same := known.filter (·.1 = given)
  let candidates := if same.isEmpty then known.filter (·.1.startsWith given) else same
  match candidates with
  | [] => .error (.unrecognized word)
  | (name, option, takes) :: others =>
    if others.any fun (_, other) => other ≠ (option, takes) then
      .error (.ambiguous word (candidates.map (·.1)))
    else
      match takes, attached, rest with
      | .nothing, [], rest => .ok (arguments.addOption option "", rest)
      | .nothing, _, _ => .error (.unwantedValue name)
      | .optional otherwise, [], rest => .ok (arguments.addOption option otherwise, rest)
      | .optional _, _ :: value, rest =>
        .ok (arguments.addOption option (String.ofList value), rest)
      | .value, _ :: value, rest => .ok (arguments.addOption option (String.ofList value), rest)
      | .value, [], value :: rest => .ok (arguments.addOption option value, rest)
      | .value, [], [] => .error (.nameWithoutValue name)

/-- The words of a command line, at most `count` of them, up to what is wrong with them. Options can
stand anywhere before `--`, unless the tool wants them first. -/
def parseWords (grammar : Grammar) :
    (count : Nat) → Arguments → List String → Arguments × Option UsageError
  | 0, arguments, words => ({ arguments with operands := arguments.operands ++ words }, none)
  | _, arguments, [] => (arguments, none)
  | count + 1, arguments, word :: rest =>
    let operand := if grammar.ordered
      then ({ arguments with operands := arguments.operands ++ word :: rest }, none)
      else parseWords grammar count (arguments.addOperand word) rest
    let continued : Arguments × Rest → Arguments × Option UsageError
      | (arguments, .ok rest) => parseWords grammar count arguments rest
      | (arguments, .error error) => (arguments, some error)
    if let some ((option, value), rest) := grammar.short (word :: rest) then
      parseWords grammar count (arguments.addOption option value) rest
    else if grammar.operand word then operand
    else
      match word.toList with
      | ['-', '-'] => ({ arguments with operands := arguments.operands ++ rest }, none)
      | '-' :: '-' :: _ =>
        match parseName grammar arguments word rest with
        | .ok (arguments, rest) => continued (arguments, .ok rest)
        | .error error => (arguments, some error)
      | '-' :: letter :: letters =>
        continued (parseLetters grammar arguments (letter :: letters) rest)
      | _ => operand

end Arguments

/-- The options and operands of a tool's command line. Each option is settled in its turn, by those
before it: a value that the tool does not take ends the tool, and options that mean the same become
one. A tool that is asked for help shows how it is called. -/
def parseArguments (grammar : Grammar) (failure : Status) (words : List String)
    (settle : Arguments → String → String → Tool (String × String) :=
      fun _ option value => pure (option, value)) : Tool Arguments := do
  let (arguments, error) := Arguments.parseWords grammar words.length {} words
  let mut settled : Arguments := { operands := arguments.operands }
  for (option, value) in arguments.options do
    if option = "help" || option = "version" then
      emit (Text.encode ("Usage: " ++ (← read) ++ " [OPTION]... [FILE]...\n"))
      leave 0 failure
    let (option, value) ← settle settled option value
    settled := settled.addOption option value
  match error with
  | some error => do
    report error.message
    leaveWithHint failure
  | none => return settled

/-- What one of some words stands for, which a value is or begins, or the end. Words of one group
mean the same. -/
def choose {α : Type} (option value : String) (groups : List (List String × α)) : Tool α := do
  let among (fits : String → Bool) := groups.filter (·.1.any fits)
  let same := among (· = value)
  let found := if same.isEmpty then among (·.startsWith value) else same
  match found with
  | [(_, meaning)] => return meaning
  | _ =>
    complain ((if found.isEmpty then "invalid" else "ambiguous") ++ " argument " ++
      Text.quotedWord value ++ " for " ++ Text.quotedWord ("--" ++ option))
    let quoted (words : List String) : String :=
      ", ".intercalate (words.map fun word => "'" ++ word ++ "'")
    say ("Valid arguments are:\n" ++
      String.join (groups.map fun (words, _) => "  - " ++ quoted words ++ "\n") ++
      "Try '" ++ (← read) ++ " --help' for more information.\n")
    leave 1 1

end TinyShell.Machine.Tool
