import TinyShell.Machine.Number
import TinyShell.Machine.Sh.Builtin.Basic

/-!
# Writing text

The built-in commands that write their words, in a line or in a format, with escapes in them.
-/

namespace TinyShell.Machine.Sh.Builtin

def isOctal (c : Char) : Bool := '0' ≤ c && c ≤ '7'

/-- The character that a letter behind a backslash stands for. -/
def letterEscape? : Char → Option Char
  | '\\' => some '\\'
  | 'a' => some '\x07'
  | 'b' => some '\x08'
  | 'f' => some '\x0c'
  | 'n' => some '\n'
  | 'r' => some '\r'
  | 't' => some '\t'
  | 'v' => some '\x0b'
  | _ => none

/-- The character that an escape stands for, of which the backslash has been read, with what is
left. A backslash before anything else is just that. -/
def escape (chars : List Char) : Char × List Char :=
  match chars with
  | [] => ('\\', [])
  | c :: rest =>
    if isOctal c then
      let digits := (chars.take 3).takeWhile isOctal
      (Char.ofNat (Number.ofDigits 8 digits % 256), chars.drop digits.length)
    else
      match letterEscape? c with
      | some d => (d, rest)
      | none => ('\\', chars)

/-- A text with its escapes read, and whether one of them ends all output. `count` bounds the
steps. -/
def unescape : (count : Nat) → List Char → List Char × Bool
  | 0, _ => ([], false)
  | _, [] => ([], false)
  | count + 1, '\\' :: rest =>
    match rest with
    | 'c' :: _ => ([], true)
    | _ =>
      let chars := match rest with
        | '0' :: d :: rest => if isOctal d then d :: rest else '0' :: d :: rest
        | rest => rest
      let (c, rest) := escape chars
      let (more, ended) := unescape count rest
      (c :: more, ended)
  | count + 1, c :: rest =>
    let (more, ended) := unescape count rest
    (c :: more, ended)

/-- Words in a line. -/
def echo (args : List String) : Sh Nat := do
  let (newline, words) := match args with
    | "-n" :: words => (false, words)
    | words => (true, words)
  let rec go : List String → Sh Bool
    | [] => return false
    | word :: rest => do
      let (chars, ended) := unescape (word.length + 1) word.toList
      put (String.ofList chars)
      if ended then return true
      unless rest.isEmpty do
        put " "
      go rest
  if !(← go words) && newline then
    put "\n"
  return 0

/-! ## Formats -/

/-- The words that a format takes its values from, and whether one of them was no value. -/
structure Values where
  words : List String
  failed : Bool := false

/-- A step of writing in a format. -/
abbrev Formatting := StateT Values Sh

def nextWord : Formatting (Option String) := do
  let values ← get
  match values.words with
  | [] => return none
  | word :: words =>
    set { values with words }
    return some word

/-- A word that is not the value that it should be. -/
def wrongValue (word message : String) : Formatting Unit := do
  modify fun values => { values with failed := true }
  (complain (word ++ ": " ++ message) : Sh Unit)

/-- A complaint if not all of a word was read as a value. -/
def checkValue (word : String) (rest : List Char) : Formatting Unit := do
  unless rest.isEmpty do
    if rest.length = word.length then
      wrongValue word "expected numeric value"
    else
      wrongValue word "not completely converted"

/-- The whole number that a word writes, in a base that it may name. -/
def nextInteger (signed : Bool) : Formatting Int := do
  match ← nextWord with
  | none => return 0
  | some word =>
    match word.toList with
    | '"' :: rest | '\'' :: rest => return ((rest.head?.map (·.toNat)).getD 0 : Nat)
    | chars =>
      let behind := chars.dropWhile Number.isSpaceChar
      let (negative, body) := match behind with
        | '-' :: rest => (true, rest)
        | '+' :: rest => (false, rest)
        | rest => (false, rest)
      let (base, body) := match body with
        | '0' :: x :: d :: rest =>
          if (x = 'x' || x = 'X') && Number.isDigitOf 16 d then (16, d :: rest) else (8, body)
        | '0' :: _ => (8, body)
        | _ => (10, body)
      let digits := body.takeWhile (Number.isDigitOf base)
      let rest := if digits.isEmpty then chars else body.drop digits.length
      let magnitude := Number.ofDigits base digits
      let value : Int := if negative then -(magnitude : Int) else magnitude
      let smallest := Number.smallest
      let largest : Int := if signed then Number.largest else (UInt64.size - 1 : Nat)
      let tooLarge := largest < magnitude && !(signed && value = smallest)
      checkValue word rest
      if tooLarge then
        if rest.isEmpty then
          wrongValue word "Numerical result out of range"
        return if signed && negative then smallest else largest
      else return if signed then value else (UInt64.ofInt value).toNat

/-- The number that a word writes. -/
def nextNumber : Formatting Number := do
  match ← nextWord with
  | none => return .ofInt 0
  | some word =>
    match word.toList with
    | '"' :: rest | '\'' :: rest => return .ofInt ((rest.head?.map (·.toNat)).getD 0 : Nat)
    | chars =>
      match Number.read? chars with
      | some (number, rest) =>
        checkValue word rest
        return number.rounded 53
      | none =>
        checkValue word chars
        return .ofInt 0

/-- The flags at the start of a conversion. -/
def readFlags (layout : Layout) : List Char → Layout × List Char
  | [] => (layout, [])
  | c :: rest =>
    match layout.flag? c with
    | some layout => readFlags layout rest
    | none => (layout, c :: rest)

/-- A width or precision, which can be a word. -/
def readSize (chars : List Char) : Formatting (Option Int × List Char) := do
  match chars with
  | '*' :: rest => return (some (← nextInteger true), rest)
  | chars =>
    let digits := chars.takeWhile Char.isDigit
    let rest := chars.drop digits.length
    return (if digits.isEmpty then none else some (Tool.digitsValue digits), rest)

/-- A text in a field. -/
def fieldOf (layout : Layout) (text : String) : String :=
  let text := match layout.precision with
    | some precision => (text.take precision).toString
    | none => text
  { layout with zero := false }.fill "" text false

/-- The text of a conversion, and whether it ends all output. -/
def convert (layout : Layout) (written : String) (letter : Char) :
    Formatting (String × Bool) := do
  match letter with
  | 'b' =>
    let (chars, ended) := match ← nextWord with
      | some word => unescape (word.length + 1) word.toList
      | none => ([], false)
    return (fieldOf layout (String.ofList chars), ended)
  | 'c' =>
    let first := ((← nextWord).getD "").toList.head?.getD '\x00'
    return (fieldOf { layout with precision := none } first.toString, false)
  | 's' => return (fieldOf layout ((← nextWord).getD ""), false)
  | 'd' | 'i' =>
    let value ← nextInteger true
    return (layout.whole (value < 0) value.natAbs 10 "" false, false)
  | 'u' =>
    let value ← nextInteger false
    let layout := { layout with plus := false, blank := false }
    return (layout.whole false value.toNat 10 "" false, false)
  | 'o' =>
    let value ← nextInteger false
    let lead := if layout.alternate then "0" else ""
    let layout := { layout with plus := false, blank := false }
    return (layout.whole false value.toNat 8 lead false, false)
  | 'x' | 'X' =>
    let value ← nextInteger false
    let lead := if layout.alternate then (if letter = 'x' then "0x" else "0X") else ""
    return ({ layout with plus := false, blank := false }.whole false value.toNat 16 lead
      (letter = 'X'), false)
  | 'a' | 'A' | 'e' | 'E' | 'f' | 'F' | 'g' | 'G' =>
    return (layout.number 53 letter (← nextNumber), false)
  | _ => (fail (written ++ ": invalid directive") : Sh (String × Bool))

/-- A format once; whether it ends all output. `count` bounds the steps. -/
def writeFormat : (count : Nat) → List Char → Formatting Bool
  | 0, _ => return false
  | _, [] => return false
  | count + 1, '\\' :: rest => do
    let (c, rest) := escape rest
    (put c.toString : Sh Unit)
    writeFormat count rest
  | count + 1, '%' :: '%' :: rest => do
    (put "%" : Sh Unit)
    writeFormat count rest
  | count + 1, '%' :: rest => do
    let (layout, behind) := readFlags {} rest
    let (width, behind) ← readSize behind
    let width := width.getD 0
    let layout := { layout with left := layout.left || width < 0, width := width.natAbs }
    let (layout, behind) ← match behind with
      | '.' :: behind => do
        let (precision, behind) ← readSize behind
        let precision := precision.getD 0
        let kept := if precision < 0 then none else some precision.toNat
        pure ({ layout with precision := kept }, behind)
      | behind => pure (layout, behind)
    match behind with
    | [] => (fail "missing format character" : Sh Bool)
    | letter :: behind =>
      let written := '%' :: rest.take (rest.length - behind.length)
      let (text, ended) ← convert layout (String.ofList written) letter
      (put text : Sh Unit)
      if ended then return true else writeFormat count behind
  | count + 1, c :: rest => do
    (put c.toString : Sh Unit)
    writeFormat count rest

/-- A format again and again, until all words are used up. -/
def printf (args : List String) : Sh Nat := do
  let (_, args) ← readOptions [] args
  match args with
  | [] => fail "usage: printf format [arg ...]"
  | format :: words =>
    let chars := format.toList
    let round : Formatting Bool := writeFormat (chars.length + 1) chars
    iterate (fun values : Values => do
      let (ended, after) ← round.run values
      let status := if after.failed then 1 else 0
      if ended || after.words.isEmpty || after.words.length = values.words.length then
        return .inr status
      else return .inl after) { words }

end TinyShell.Machine.Sh.Builtin
