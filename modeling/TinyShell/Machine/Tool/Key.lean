import TinyShell.Machine.Tool.Order
import TinyShell.Machine.Tool.Size

/-!
# Keys

The parts of lines that lines are ordered by.
-/

namespace TinyShell.Machine.Tool

open Text (Bytes)

/-- By what a key is compared. -/
inductive Measure where
  | bytes
  | number
  | general
  | human
  | month
  | version
  deriving DecidableEq, Repr, Inhabited

/-- A part of each line, and how it is compared. Words and bytes are counted from zero. -/
structure Key where
  startWord : Nat := 0
  startByte : Nat := 0
  /-- The word that the key ends in, or all to the end of the line. -/
  endWord : Option Nat := none
  /-- The bytes of that word; all for zero. -/
  endByte : Nat := 0
  skipsStart : Bool := false
  skipsEnd : Bool := false
  dictionary : Bool := false
  printing : Bool := false
  folds : Bool := false
  /-- The letters of the measures that were asked for. -/
  measures : List Char := []
  reverse : Bool := false
  deriving Inhabited

namespace Key

/-- The key with what a letter asks for; nothing for a letter that means nothing. `atStart` and
`atEnd` say which end of the key the letter stands at. -/
def option? (key : Key) (atStart atEnd : Bool) (letter : Char) : Option Key :=
  let measured : Key := { key with
    measures := if key.measures.contains letter then key.measures else key.measures ++ [letter] }
  match letter with
  | 'b' => some { key with
      skipsStart := key.skipsStart || atStart, skipsEnd := key.skipsEnd || atEnd }
  | 'd' => some { key with dictionary := true }
  | 'f' => some { key with folds := true }
  | 'i' => some { key with printing := true }
  | 'r' => some { key with reverse := true }
  | 'n' | 'g' | 'h' | 'M' | 'V' | 'R' => some measured
  | _ => none

/-- Whether nothing is said about how the key is compared. -/
def isPlain (key : Key) : Bool :=
  !(key.skipsStart || key.skipsEnd || key.dictionary || key.printing || key.folds ||
    !key.measures.isEmpty || key.reverse)

def measure (key : Key) : Measure :=
  if key.measures.contains 'n' then .number
  else if key.measures.contains 'g' then .general
  else if key.measures.contains 'h' then .human
  else if key.measures.contains 'M' then .month
  else if key.measures.contains 'V' then .version
  else .bytes

/-- The letters of a key that cannot be together. -/
def conflict? (key : Key) : Option String :=
  let ignoring := key.dictionary || key.printing
  let kinds := key.measures.countP (fun letter => letter ≠ 'V' && letter ≠ 'R') +
    (if ignoring || key.measures.any (['V', 'R'].contains ·) then 1 else 0)
  if kinds ≤ 1 then none
  else
    let letter (c : Char) (shown : Bool) : List Char := if shown then [c] else []
    some (String.ofList (letter 'd' key.dictionary ++ letter 'f' key.folds ++
      ['g', 'h'].filter key.measures.contains ++
      letter 'i' (key.printing && !key.dictionary) ++
      ['M', 'n', 'R', 'V'].filter key.measures.contains))

end Key

/-- The number at the start of a field of a key, with what is left; in words what is wrong with it
otherwise. -/
def fieldCount (kind spec : String) (chars : List Char) : Except String (Nat × List Char) :=
  let bare := chars.dropWhile Number.isSpaceChar
  let bare := if bare.head? = some '+' then bare.drop 1 else bare
  let digits := bare.takeWhile Char.isDigit
  if digits.isEmpty then
    .error (kind ++ ": invalid count at start of " ++ Text.quotedWord spec)
  else .ok (digitsValue digits, bare.drop digits.length)

/-- The letters at one end of a key. -/
def keyLetters (atStart atEnd : Bool) : Key → List Char → Key × List Char
  | key, c :: rest =>
    match key.option? atStart atEnd c with
    | some key => keyLetters atStart atEnd key rest
    | none => (key, c :: rest)
  | key, [] => (key, [])

/-- A key as it is given: a word and perhaps a byte of it, letters, and the same for the end. -/
def Key.parse (spec : String) : Except String Key := do
  let bad {α : Type} (what : String) : Except String α :=
    .error (what ++ ": invalid field specification " ++ Text.quotedWord spec)
  let atChars (chars : List Char) : String := String.ofList chars
  let (word, rest) ← fieldCount "invalid number at field start" spec spec.toList
  if word = 0 then
    bad "field number is zero"
  let (byte, rest) ← match rest with
    | '.' :: rest => do
      let (byte, rest) ← fieldCount "invalid number after '.'" (atChars rest) rest
      if byte = 0 then
        bad "character offset is zero"
      pure (byte - 1, rest)
    | rest => pure (0, rest)
  let key : Key := { startWord := word - 1, startByte := byte }
  let (key, rest) := keyLetters true false key rest
  match rest with
  | [] => return key
  | ',' :: rest =>
    let (word, rest) ← fieldCount "invalid number after ','" (atChars rest) rest
    if word = 0 then
      bad "field number is zero"
    let (byte, rest) ← match rest with
      | '.' :: rest => fieldCount "invalid number after '.'" (atChars rest) rest
      | rest => pure (0, rest)
    let (key, rest) := keyLetters false true
      { key with endWord := some (word - 1), endByte := byte } rest
    if rest.isEmpty then return key else bad "stray character in field spec"
  | _ => bad "stray character in field spec"

/-- Whether a word can be short for a key: a plus sign, the words to skip and perhaps bytes, and
letters. -/
def isShortKey (word : String) : Bool :=
  match word.toList with
  | '+' :: chars =>
    match fieldCount "" "" chars with
    | .error _ => false
    | .ok (_, rest) =>
      let letters := match rest with
        | '.' :: rest => ((fieldCount "" "" rest).toOption.map (·.2)).getD ['.']
        | rest => rest
      (keyLetters true false {} letters).2.isEmpty
  | _ => false

/-- A key in its short form, of two words: all is counted from zero, and the second word, which may
be empty, is for the end. -/
def Key.parseShort (first last : String) : Except String Key := do
  let (word, rest) ← fieldCount "" "" (first.toList.drop 1)
  let (byte, rest) ← match rest with
    | '.' :: rest => fieldCount "" "" rest
    | rest => pure (0, rest)
  let (key, _) := keyLetters true false { startWord := word, startByte := byte } rest
  if last.isEmpty then return key
  else
    let shown := (last.drop 1).toString
    let (word, rest) ← fieldCount "invalid number after '-'" shown shown.toList
    let (byte, rest) ← match rest with
      | '.' :: rest => fieldCount "invalid number after '.'" (String.ofList rest) rest
      | rest => pure (0, rest)
    let word := if byte = 0 then word - 1 else word
    let (key, rest) := keyLetters false true { key with endWord := some word, endByte := byte } rest
    if rest.isEmpty then return key
    else .error ("stray character in field spec: invalid field specification " ++
      Text.quotedWord last)

/-! ## Parts of lines -/

def isBlank (byte : UInt8) : Bool := byte = 32 || byte = 9 || byte = 10

/-- What is left behind so many words. Without a separator, a word takes the blanks before it. -/
def dropWords (separator : Option UInt8) : (count : Nat) → Bytes → Bytes
  | 0, bytes => bytes
  | _, [] => []
  | count + 1, bytes =>
    match separator with
    | some mark => dropWords separator count ((bytes.dropWhile (· ≠ mark)).drop 1)
    | none => dropWords separator count ((bytes.dropWhile isBlank).dropWhile (!isBlank ·))

namespace Key

/-- Where the key starts: what is left of the line from there on. -/
def start (key : Key) (separator : Option UInt8) (line : Bytes) : Bytes :=
  let bytes := dropWords separator key.startWord line
  let bytes := if key.skipsStart then bytes.dropWhile isBlank else bytes
  bytes.drop key.startByte

/-- What is left of the line where the key ends. -/
def rest (key : Key) (separator : Option UInt8) (line : Bytes) : Bytes :=
  match key.endWord with
  | none => []
  | some word =>
    if key.endByte = 0 then
      let bytes := dropWords separator word line
      match separator with
      | some mark => bytes.dropWhile (· ≠ mark)
      | none => dropWords none 1 bytes
    else
      let bytes := dropWords separator word line
      let bytes := if key.skipsEnd then bytes.dropWhile isBlank else bytes
      bytes.drop key.endByte

/-- The bytes of the key. -/
def field (key : Key) (separator : Option UInt8) (line : Bytes) : Bytes :=
  let start := key.start separator line
  start.take (start.length - (key.rest separator line).length)

end Key

end TinyShell.Machine.Tool
