import TinyShell.Machine.Number
import TinyShell.Machine.Sh.Env

/-!
# Conditions

The built-in command that tests files, texts and numbers.
-/

namespace TinyShell.Machine.Sh.Builtin

/-- How an operator of a condition is used. -/
inductive OperatorKind where
  | unary
  | binary
  | not
  | and
  | or
  | opens
  | closes
  deriving DecidableEq, Repr, Inhabited

/-- The kind of an operator, nothing for a word that is none. -/
def operatorKind? (word : String) : Option OperatorKind :=
  if ["-r", "-w", "-x", "-e", "-f", "-d", "-c", "-b", "-p", "-u", "-g", "-k", "-s", "-t", "-z",
      "-n", "-h", "-L", "-O", "-G", "-S"].contains word then some .unary
  else if ["=", "!=", "<", ">", "-eq", "-ne", "-ge", "-gt", "-le", "-lt", "-nt", "-ot",
      "-ef"].contains word then some .binary
  else match word with
    | "!" => some .not
    | "-a" => some .and
    | "-o" => some .or
    | "(" => some .opens
    | ")" => some .closes
    | _ => none

/-- The operator at the start of some words; nothing if the word is an operand there. -/
def operatorAt? (words : List String) : Option OperatorKind :=
  match words with
  | [] => none
  | word :: rest =>
    match operatorKind? word with
    | some .unary =>
      match rest with
      | [] => none
      | [_] => some .unary
      | next :: _ => if operatorKind? next = some .binary then none else some .unary
    | some .opens => if rest.isEmpty then none else some .opens
    | kind => kind

/-- The whole number that a text writes, blanks around it apart. -/
def integer (text : String) : Sh Int := do
  let chars := text.toList.dropWhile Number.isSpaceChar
  let (negative, body) := match chars with
    | '-' :: rest => (true, rest)
    | '+' :: rest => (false, rest)
    | rest => (false, rest)
  let digits := body.takeWhile Char.isDigit
  let rest := (body.drop digits.length).dropWhile Number.isSpaceChar
  let magnitude : Int := Tool.digitsValue digits
  let value := if negative then -magnitude else magnitude
  if digits.isEmpty || !rest.isEmpty || Number.clamp value ≠ value then
    fail ("Illegal number: " ++ text)
  else return value

/-- What a unary operator says of its operand. -/
def unaryTest (operator operand : String) : Sh Bool := do
  let file (keep : Bool) (test : FileStatus → Bool) : Sh Bool := do
    match ← inspect operand keep with
    | .ok status => return test status
    | .error _ => return false
  match operator with
  | "-z" => return operand.isEmpty
  | "-n" => return !operand.isEmpty
  | "-t" =>
    let _ ← integer operand
    return false
  | "-e" | "-r" | "-w" | "-O" | "-G" => file false fun _ => true
  | "-x" => file false (·.executable)
  | "-f" => file false (·.kind = .regular)
  | "-d" => file false (·.kind = .directory)
  | "-c" => file false (·.kind = .character)
  | "-p" => file false (·.kind = .channel)
  | "-s" => file false (0 < ·.size)
  | "-h" | "-L" => file true (·.kind = .link)
  | _ => return false

/-- What a binary operator says of its operands. -/
def binaryTest (operator first second : String) : Sh Bool := do
  let numbers (test : Int → Int → Bool) : Sh Bool := do
    let a ← integer first
    let b ← integer second
    return test a b
  match operator with
  | "=" => return first = second
  | "!=" => return first ≠ second
  | "<" => return first < second
  | ">" => return second < first
  | "-eq" => numbers (· = ·)
  | "-ne" => numbers (· ≠ ·)
  | "-ge" => numbers (· ≥ ·)
  | "-gt" => numbers (· > ·)
  | "-le" => numbers (· ≤ ·)
  | "-lt" => numbers (· < ·)
  | "-ef" =>
    match ← inspect first, ← inspect second with
    | .ok a, .ok b => return a.identity = b.identity
    | _, _ => return false
  | _ => return false

/-- A step of a condition on the words that are left, the current one first. -/
abbrev Testing := StateT (List String) Sh

def advance : Testing Unit := modify (List.drop 1)

/-- The end because of a condition that is none. -/
def badTest {α : Type} (word message : String) : Testing α :=
  fun _ => fail (if word.isEmpty then message else word ++ ": " ++ message)

mutual

/-- Conditions joined by `-o`. The word after them is the current one but one. -/
def testOr : (fuel : Nat) → Option OperatorKind → Testing Bool
  | 0, _ => return false
  | fuel + 1, kind => do
    let first ← testAnd fuel kind
    if operatorAt? ((← get).drop 1) = some .or then
      modify (List.drop 2)
      let rest ← testOr fuel (operatorAt? (← get))
      return first || rest
    else return first

/-- Conditions joined by `-a`. -/
def testAnd : (fuel : Nat) → Option OperatorKind → Testing Bool
  | 0, _ => return false
  | fuel + 1, kind => do
    let first ← testNot fuel kind
    if operatorAt? ((← get).drop 1) = some .and then
      modify (List.drop 2)
      let rest ← testAnd fuel (operatorAt? (← get))
      return first && rest
    else return first

/-- A condition, perhaps negated. -/
def testNot : (fuel : Nat) → Option OperatorKind → Testing Bool
  | 0, _ => return false
  | fuel + 1, kind => do
    if kind = some .not then
      let words ← get
      if 1 < words.length then
        advance
      return !(← testNot fuel (operatorAt? (words.drop 1)))
    else testPrimary fuel kind

/-- A single condition. -/
def testPrimary : (fuel : Nat) → Option OperatorKind → Testing Bool
  | 0, _ => return false
  | fuel + 1, kind => do
    let words ← get
    match words, kind with
    | [], _ => return false
    | _ :: rest, some .opens => do
      advance
      if operatorAt? rest = some .closes then return false
      let value ← testOr fuel (operatorAt? rest)
      advance
      if operatorAt? (← get) = some .closes then return value
      else badTest "" "closing paren expected"
    | operator :: rest, some .unary =>
      match rest with
      | [] => badTest operator "argument expected"
      | operand :: _ => do
        advance
        (unaryTest operator operand : Sh Bool)
    | first :: rest, _ =>
      if operatorAt? rest = some .binary then
        match rest with
        | operator :: second :: _ => do
          modify (List.drop 2)
          (binaryTest operator first second : Sh Bool)
        | operator :: _ => badTest operator "argument expected"
        | [] => return !first.isEmpty
      else return !first.isEmpty

end

/-- The condition of some words, none of which is a bracket around it all. -/
def testWords : (count : Nat) → List String → Sh Bool
  | 0, _ => return false
  | _, [] => return false
  | count + 1, words => do
    let whole (kind : Option OperatorKind) (words : List String) : Sh Bool := do
      let (value, rest) ← (testOr (10 * words.length + 10) kind).run words
      match rest with
      | word :: next :: _ => (badTest word "unexpected operator").run' [word, next]
      | _ => return value
    let isBinary : Bool := match words with
      | [_, operator, _] => operatorKind? operator = some .binary
      | _ => false
    if isBinary then whole none words
    else if words.length = 3 || words.length = 4 then
      if words.head? = some "(" && words.getLast? = some ")" then
        let inside := (words.drop 1).dropLast
        whole (operatorAt? inside) inside
      else if words.head? = some "!" then
        return !(← testWords count (words.drop 1))
      else whole (operatorAt? words) words
    else whole (operatorAt? words) words

/-- The built-in command, by either of its names. -/
def test (name : String) (args : List String) : Sh Nat := do
  if name = "[" && args.getLast? ≠ some "]" then
    fail "missing ]"
  let words := if name = "[" then args.dropLast else args
  return if ← testWords (words.length + 1) words then 0 else 1

end TinyShell.Machine.Sh.Builtin
