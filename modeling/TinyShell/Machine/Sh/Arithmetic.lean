import TinyShell.Machine.Number
import TinyShell.Machine.Sh.Syntax

/-!
# Arithmetic

Expressions on whole numbers of 64 bits, in which variables can be read and set.
-/

namespace TinyShell.Machine.Sh.Arithmetic

/-! ## Tokens -/

inductive Symbol where
  | number (value : Int)
  | variable (name : String)
  | operator (text : String)
  | bad
  deriving DecidableEq, Repr, Inhabited

/-- The operators, those of more characters before those that they start with. -/
def operators : List String :=
  ["<<=", ">>=", "<<", ">>", "<=", ">=", "==", "!=", "&&", "||", "+=", "-=", "*=", "/=", "%=",
    "&=", "|=", "^=", "<", ">", "=", "!", "&", "|", "^", "+", "-", "*", "/", "%", "~", "?", ":",
    "(", ")"]

/-- The number of 64 bits that a whole number becomes. -/
def wrap (n : Int) : Int := (Int64.ofInt n).toInt

/-- The base of the number at the start of a text, and what comes behind its mark. -/
def baseOf (chars : List Char) : Nat × List Char :=
  match chars with
  | '0' :: x :: d :: rest =>
    if (x = 'x' || x = 'X') && Number.isDigitOf 16 d then (16, d :: rest) else (8, chars)
  | '0' :: _ => (8, chars)
  | _ => (10, chars)

/-- The number at the start of a text, with what is left. -/
def readNumber (chars : List Char) : Int × List Char :=
  let (base, body) := baseOf chars
  let digits := body.takeWhile (Number.isDigitOf base)
  (min Number.largest (Number.ofDigits base digits), body.drop digits.length)

/-- The tokens of an expression. `count` bounds their number. -/
def symbols : (count : Nat) → List Char → List Symbol
  | 0, _ => []
  | _, [] => []
  | count + 1, c :: rest =>
    if c = ' ' || c = '\t' || c = '\n' then symbols count rest
    else if c.isDigit then
      let (value, rest) := readNumber (c :: rest)
      .number value :: symbols count rest
    else if isNameStart c then
      let name := (c :: rest).takeWhile isNameChar
      .variable (String.ofList name) :: symbols count ((c :: rest).drop name.length)
    else
      match operators.find? fun text => text.toList.isPrefixOf (c :: rest) with
      | some text => .operator text :: symbols count ((c :: rest).drop text.length)
      | none => [.bad]

/-! ## Evaluation -/

/-- What an expression is evaluated with: the symbols left, the values of the variables, and those
set so far, the last one first. -/
structure Evaluation where
  left : List Symbol
  lookup : String → Option String
  set : List (String × Int) := []

/-- A step of evaluation; in words what is wrong otherwise. -/
abbrev Evaluating := StateT Evaluation (Except String)

/-- What is wrong with an expression. -/
def wrong {α : Type} (what : String) : Evaluating α := throw what

/-- The number that a text stands for, blanks around it apart; an empty text is zero. -/
def numberOf? (text : String) : Option Int :=
  let chars := text.toList.dropWhile Number.isSpaceChar
  let (negative, body) := match chars with
    | '-' :: rest => (true, rest)
    | '+' :: rest => (false, rest)
    | rest => (false, rest)
  let (base, digits) := baseOf body
  let number := digits.takeWhile (Number.isDigitOf base)
  let rest := (digits.drop number.length).dropWhile Number.isSpaceChar
  if number.isEmpty then (if (chars.dropWhile Number.isSpaceChar).isEmpty then some 0 else none)
  else if rest.isEmpty then
    let value : Int := Number.ofDigits base number
    some (Number.clamp (if negative then -value else value))
  else none

def peek : Evaluating (Option Symbol) := do return (← get).left.head?

def advance : Evaluating Unit := modify fun state => { state with left := state.left.drop 1 }

/-- Whether an operator comes next, which is then passed over. -/
def accept (text : String) : Evaluating Bool := do
  if (← peek) = some (.operator text) then
    advance
    return true
  else return false

/-- The value of a variable. -/
def valueOf (name : String) : Evaluating Int := do
  let state ← get
  match state.set.lookup name with
  | some value => return value
  | none =>
    let text := (state.lookup name).getD ""
    match numberOf? text with
    | some value => return value
    | none => throw ("Illegal number: " ++ text)

def assign (name : String) (value : Int) : Evaluating Unit :=
  modify fun state => { state with set := (name, value) :: state.set }

/-- The operators between two values, by how close they bind. -/
def levels : List (List String) :=
  [["|"], ["^"], ["&"], ["==", "!="], ["<", "<=", ">", ">="], ["<<", ">>"], ["+", "-"],
    ["*", "/", "%"]]

/-- The value of an operator; nothing is divided by zero. -/
def apply (operator : String) (a b : Int) : Evaluating Int :=
  let truth (b : Bool) : Evaluating Int := pure (if b then 1 else 0)
  let bits (f : Nat → Nat → Nat) : Evaluating Int :=
    pure (wrap (f (UInt64.ofInt a).toNat (UInt64.ofInt b).toNat))
  match operator with
  | "+" => pure (wrap (a + b))
  | "-" => pure (wrap (a - b))
  | "*" => pure (wrap (a * b))
  | "/" => if b = 0 then wrong "division by zero" else pure (wrap (Int.tdiv a b))
  | "%" => if b = 0 then wrong "division by zero" else pure (Int.tmod a b)
  | "<<" => pure (wrap (a * Nat.pow 2 (b % 64).toNat))
  | ">>" => pure (a / Nat.pow 2 (b % 64).toNat)
  | "<" => truth (a < b)
  | "<=" => truth (a ≤ b)
  | ">" => truth (a > b)
  | ">=" => truth (a ≥ b)
  | "==" => truth (a = b)
  | "!=" => truth (a ≠ b)
  | "&" => bits Nat.land
  | "|" => bits Nat.lor
  | "^" => bits Nat.xor
  | _ => pure 0

/-- The operators that set a variable, with what they do to its value. -/
def assignments : List (String × Option String) :=
  [("=", none), ("+=", some "+"), ("-=", some "-"), ("*=", some "*"), ("/=", some "/"),
    ("%=", some "%"), ("<<=", some "<<"), (">>=", some ">>"), ("&=", some "&"), ("|=", some "|"),
    ("^=", some "^")]

mutual

/-- An expression that may set a variable. What is `skipped` is read and has no effect. -/
def expression : (fuel : Nat) → (skipped : Bool) → Evaluating Int
  | 0, _ => wrong "expecting primary"
  | fuel + 1, skipped => do
    match (← get).left with
    | .variable name :: .operator text :: _ =>
      match assignments.lookup text with
      | some operator => do
        advance
        advance
        let value ← expression fuel skipped
        if skipped then return value
        else
          let value ← match operator with
            | some operator => apply operator (← valueOf name) value
            | none => pure value
          assign name value
          return value
      | none => choice fuel skipped
    | _ => choice fuel skipped

/-- One of two values, by a condition. -/
def choice : (fuel : Nat) → (skipped : Bool) → Evaluating Int
  | 0, _ => wrong "expecting primary"
  | fuel + 1, skipped => do
    let test ← either fuel skipped
    if ← accept "?" then
      let yes ← expression fuel (skipped || test = 0)
      unless ← accept ":" do
        wrong "expecting ':'"
      let no ← choice fuel (skipped || test ≠ 0)
      return if test ≠ 0 then yes else no
    else return test

def either : (fuel : Nat) → (skipped : Bool) → Evaluating Int
  | 0, _ => wrong "expecting primary"
  | fuel + 1, skipped => do
    let first ← both fuel skipped
    if ← accept "||" then
      let second ← either fuel (skipped || first ≠ 0)
      return if first ≠ 0 || second ≠ 0 then 1 else 0
    else return first

def both : (fuel : Nat) → (skipped : Bool) → Evaluating Int
  | 0, _ => wrong "expecting primary"
  | fuel + 1, skipped => do
    let first ← binary fuel skipped levels
    if ← accept "&&" then
      let second ← both fuel (skipped || first = 0)
      return if first ≠ 0 && second ≠ 0 then 1 else 0
    else return first

/-- Operators between values, the loosest of the levels first. -/
def binary : (fuel : Nat) → (skipped : Bool) → List (List String) → Evaluating Int
  | 0, _, _ => wrong "expecting primary"
  | fuel + 1, skipped, [] => primary fuel skipped
  | fuel + 1, skipped, level :: tighter => do
    let first ← binary fuel skipped tighter
    moreBinary fuel skipped level tighter first

/-- The operators of a level behind a value. -/
def moreBinary : (fuel : Nat) → (skipped : Bool) → (level : List String) → List (List String) →
    Int → Evaluating Int
  | 0, _, _, _, _ => wrong "expecting primary"
  | fuel + 1, skipped, level, tighter, first => do
    match ← peek with
    | some (.operator text) =>
      if level.contains text then do
        advance
        let second ← binary fuel skipped tighter
        let value ← if skipped then pure first else apply text first second
        moreBinary fuel skipped level tighter value
      else return first
    | _ => return first

/-- A number, a variable, or an expression in parentheses, with signs before it. -/
def primary : (fuel : Nat) → (skipped : Bool) → Evaluating Int
  | 0, _ => wrong "expecting primary"
  | fuel + 1, skipped => do
    match ← peek with
    | some (.number value) => do
      advance
      return value
    | some (.variable name) => do
      advance
      if skipped then return 0 else valueOf name
    | some (.operator "(") => do
      advance
      let value ← expression fuel skipped
      unless ← accept ")" do
        wrong "expecting ')'"
      return value
    | some (.operator "+") => do
      advance
      primary fuel skipped
    | some (.operator "-") => do
      advance
      return wrap (-(← primary fuel skipped))
    | some (.operator "!") => do
      advance
      return if (← primary fuel skipped) = 0 then 1 else 0
    | some (.operator "~") => do
      advance
      return wrap (-(← primary fuel skipped) - 1)
    | _ => wrong "expecting primary"

end

/-- The value of an expression and the variables that it sets, in order. An expression with
something wrong in it sets none. -/
def evaluate (text : String) (lookup : String → Option String) :
    Except String (Int × List (String × Int)) := do
  let left := symbols text.length text.toList
  let whole : Evaluating Int := do
    let value ← expression (20 * left.length + 100) false
    unless (← get).left.isEmpty do
      wrong "expecting EOF"
    return value
  match whole.run { left, lookup } with
  | .ok (value, state) => return (value, state.set.reverse)
  | .error message =>
    if message.startsWith "Illegal number" then throw message
    else throw ("arithmetic expression: " ++ message ++ ": \"" ++ text ++ "\"")

end TinyShell.Machine.Sh.Arithmetic
