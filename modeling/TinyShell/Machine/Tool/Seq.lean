import TinyShell.Machine.Number
import TinyShell.Machine.Tool.Options

/-!
# seq and sleep

Numbers in a row, and time that passes.
-/

namespace TinyShell.Machine.Tool

/-! ## Numbers as they are given -/

/-- A number of the command line, with the columns that it takes and the digits behind its point;
none are known of a number that is not written in base ten. -/
structure Term where
  value : Number
  width : Int := 0
  places : Option Nat := some 0

/-- The columns and places of a number in base ten. -/
def measure (text : List Char) : Int × Nat :=
  let isExponent (c : Char) : Bool := c = 'e' || c = 'E'
  let mantissa := text.takeWhile (!isExponent ·)
  let whole := mantissa.takeWhile (· ≠ '.')
  let pointed := whole.length < mantissa.length
  let fraction := mantissa.length - whole.length - 1
  -- A point needs a digit on both of its sides.
  let width : Int := mantissa.length +
    (if !pointed then 0
      else if fraction = 0 then -1
      else if whole.getLast?.any Char.isDigit then 0 else 1)
  if mantissa.length = text.length then (width, fraction)
  else
    let power := (Number.readExponent 'e' 'E' (text.drop mantissa.length)).1
    let size := power.natAbs
    if power < 0 then
      (width + (if pointed then (if fraction = 0 then 1 else 0) else 1) + size, fraction + size)
    else
      let places := fraction - size
      (width - (if pointed && places = 0 && 0 < fraction then 1 else 0) +
        (size - min fraction size : Nat), places)

/-- A number of the command line. -/
def term (text : String) : Tool Term := do
  match (Number.parse? text).filter Number.isKept with
  | none => refuse ("invalid floating point argument: " ++ Text.quotedWord text) 1
  | some .notANumber =>
    refuse ("invalid 'not-a-number' argument: " ++ Text.quotedWord text) 1
  | some value =>
    let chars := text.toList.dropWhile fun c => Number.isSpaceChar c || c = '+'
    let finite := match value with
      | .finite .. => true
      | _ => false
    if finite && !chars.any fun c => c = 'x' || c = 'X' then
      let (width, places) := measure chars
      return { value := value.kept, width, places := some places }
    else
      return {
        value := value.kept
        places := if chars.contains '.' || chars.contains 'p' then none else some 0 }

/-! ## Formats -/

/-- What stands around a number, and how the number itself is laid out. -/
structure NumberFormat where
  before : String := ""
  form : Char
  layout : Layout := {}
  after : String := ""

/-- The text up to a sign of per cent that stands alone, doubled ones made into one. -/
def plainPart : List Char → List Char × List Char
  | '%' :: '%' :: rest => let (text, rest) := plainPart rest; ('%' :: text, rest)
  | '%' :: rest => ([], '%' :: rest)
  | c :: rest => let (text, rest) := plainPart rest; (c :: text, rest)
  | [] => ([], [])

/-- The flags at the start of a layout. -/
def readFlags (layout : Layout) : List Char → Layout × List Char
  | c :: rest =>
    match layout.flag? c with
    | some layout => readFlags layout rest
    | none => if c = '\'' then readFlags layout rest else (layout, c :: rest)
  | [] => (layout, [])

/-- A format given on the command line; in words what is wrong with it otherwise. -/
def NumberFormat.parse (text : String) : Except String NumberFormat :=
  let wrong (what : String) : Except String NumberFormat :=
    .error ("format " ++ Text.quotedWord text ++ " " ++ what)
  match plainPart text.toList with
  | (_, []) => wrong "has no % directive"
  | (before, _ :: rest) =>
    let (layout, rest) := readFlags {} rest
    let width := rest.takeWhile Char.isDigit
    let rest := rest.drop width.length
    let (precision, rest) := match rest with
      | '.' :: rest =>
        let places := rest.takeWhile Char.isDigit
        (some (digitsValue places), rest.drop places.length)
      | rest => (none, rest)
    let rest := if rest.head? = some 'L' then rest.drop 1 else rest
    match rest with
    | [] => wrong "ends in %"
    | form :: rest =>
      if !"aefgAEFG".contains form then wrong ("has unknown %" ++ form.toString ++ " directive")
      else
        match plainPart rest with
        | (after, []) =>
          .ok ⟨String.ofList before, form, { layout with width := digitsValue width, precision },
            String.ofList after⟩
        | _ => wrong "has too many % directives"

/-- The format for numbers that nothing is said about: as many places as the first number and the
step have, and as many columns as the widest if all shall be equally wide. -/
def defaultFormat (first step last : Term) (wide : Bool) : NumberFormat :=
  match first.places, step.places, last.places with
  | some first', some step', some last' =>
    let places := max first' step'
    let columns (term : Term) (own : Nat) : Int :=
      term.width + ((places : Int) - own) + (if own = 0 && 0 < places then 1 else 0)
    let lastColumns := columns last last' - (if 0 < last' && places = 0 then 1 else 0)
    let width := if wide then (max (columns first first') lastColumns).toNat else 0
    { form := 'f', layout := { zero := wide, width, precision := some places } }
  | _, _, _ => { form := 'g' }

def NumberFormat.body (format : NumberFormat) (value : Number) : String :=
  format.layout.number 64 format.form value

def NumberFormat.text (format : NumberFormat) (value : Number) : String :=
  format.before ++ format.body value ++ format.after

/-! ## seq -/

/-- How many numbers are written at a time. -/
def batch : Nat := 256

/-- A row of numbers: `first` and what follows at a distance of `step` up to `last`. -/
structure Row where
  first : Number
  step : Number
  last : Number
  /-- Whether all numbers of the row are exact, however many digits they have. -/
  exact : Bool

namespace Row

/-- The number at an index. -/
def value (row : Row) (index : Nat) : Number :=
  let keep (number : Number) : Number := if row.exact then number else number.kept
  if index = 0 then row.first else keep (row.first.add (keep (row.step.times index)))

/-- Whether a number is not beyond the last one. -/
def reaches (row : Row) (value : Number) : Bool :=
  value = .notANumber ||
    value.compare row.last ≠ (if row.step.isNegative then .lt else .gt)

/-- Whether the number at an index, though beyond the last one, looks like the last one and unlike
the one before. Exact rows have none. -/
def isLookalike (row : Row) (format : NumberFormat) (index : Nat) : Bool :=
  let text := format.body (row.value index)
  let before := row.value (index - 1)
  (Number.parse? text).any (fun value => value.kept.compare row.last = .eq) &&
    !row.exact && index ≠ 0 && row.reaches before && format.body before ≠ text

/-- The texts of at most `count` numbers from an index on. -/
def texts (row : Row) (format : NumberFormat) : (count index : Nat) → List String
  | 0, _ => []
  | count + 1, index =>
    let value := row.value index
    if row.reaches value then format.text value :: texts row format count (index + 1)
    else if row.isLookalike format index then [format.text value]
    else []

/-- The row of words that are digits alone; nothing if it is empty or its steps are not small. -/
def ofDigits? (words : List String) : Option Row := do
  guard (words.all (·.toList.all Char.isDigit))
  let one := Number.ofInt 1
  let row ← match words.map fun word => Number.ofInt (Number.ofDigits 10 word.toList) with
    | [last] => some ⟨one, one, last, true⟩
    | [first, last] => some ⟨first, one, last, true⟩
    | [first, step, last] => some ⟨first, step, last, true⟩
    | _ => none
  guard (row.step.compare (.ofInt 200) ≠ .gt && row.reaches row.first)
  return row

/-- The row of three terms. It is exact if they are whole and the steps are small. -/
def ofTerms (first step last : Term) : Row where
  first := first.value
  step := step.value
  last := last.value
  exact :=
    [first, step, last].all (fun term => term.places = some 0 && !term.value.isNegative) &&
      first.value.isFinite && step.value.compare (.ofInt 200) ≠ .gt

end Row

/-- All numbers of a row, with a separator between them and a newline behind the last. -/
def putRow (format : NumberFormat) (separator : String) (row : Row) : Tool Unit :=
  iterate (fun index => do
    let texts := row.texts format batch index
    let pieces := (texts.zipIdx index).map fun (text, index) =>
      if index = 0 then text else separator ++ text
    putOr "write error" (Text.encode (String.join pieces))
    if texts.length = batch then
      return .inl (index + batch)
    if index + texts.length ≠ 0 then
      putOr "write error" [10]
    return .inr ()) 0

def seqGrammar : Grammar where
  plain := "w"
  valued := "fs"
  names := [("equal-width", "w", .nothing), ("format", "f", .value), ("separator", "s", .value)]
  ordered := true
  operand word := match word.toList with
    | '-' :: c :: _ => c = '.' || c.isDigit
    | _ => false

def seq (args : List String) : Tool Status := do
  let arguments ← parseArguments seqGrammar 1 args
  let words := arguments.operands
  if words.isEmpty then
    refuse "missing operand" 1
  if let some extra := words[3]? then
    refuse ("extra operand " ++ Text.quotedWord extra) 1
  let given ← (arguments.value? "f").mapM fun text => do
    match NumberFormat.parse text with
    | .ok format => pure format
    | .error message => die message 1
  let wide := arguments.has "w"
  if given.isSome && wide then
    refuse "format string may not be specified when printing equal width strings" 1
  let one : Term := { value := .ofInt 1, width := 1 }
  let zeroStep := (words.drop 1).dropLast.head?
  let (first, step, last) ← match words with
    | [first, last] => pure (← term first, one, ← term last)
    | [first, step, last] => do
      let first ← term first
      let step ← term step
      if step.value.compare (.ofInt 0) = .eq then
        refuse ("invalid Zero increment value: " ++ Text.quotedWord (zeroStep.getD "")) 1
      pure (first, step, ← term last)
    | words => pure (one, one, ← term (words.headD ""))
  let format := given.getD (defaultFormat first step last wide)
  let separator := (arguments.value? "s").getD "\n"
  let row := Row.ofTerms first step last
  let row :=
    if given.isNone && !wide && separator.length = 1 then (Row.ofDigits? words).getD row
    else { row with exact := false }
  putRow format separator row
  return 0

/-! ## sleep -/

/-- A time in microseconds, with a unit if there is one letter behind the number. -/
def interval? (text : String) : Option Nat := do
  let (value, rest) ← Number.read? text.toList
  let unit ← match rest with
    | [] | ['s'] => some 1
    | ['m'] => some 60
    | ['h'] => some 3600
    | ['d'] => some 86400
    | _ => none
  match value with
  | .finite negative num den =>
    if negative && num ≠ 0 then none else some (num * unit * 1000000 / den)
  | .infinite false => some (Nat.pow 10 18)
  | _ => none

def sleep (args : List String) : Tool Status := do
  let arguments ← parseArguments { plain := "" } 1 args
  if arguments.operands.isEmpty then
    refuse "missing operand" 1
  let wrong := arguments.operands.filter fun word => (interval? word).isNone
  if wrong.isEmpty then
    call (.sleep ((arguments.operands.filterMap interval?).foldl (· + ·) 0))
    return 0
  for word in wrong do
    complain ("invalid time interval " ++ Text.quotedWord word)
  say ("Try '" ++ (← read) ++ " --help' for more information.\n")
  return 1

end TinyShell.Machine.Tool
