import TinyShell.Machine.Number
import TinyShell.Machine.Tool.Basic

/-!
# Sizes

Whole numbers of a command line, with the letters behind them that multiply them.
-/

namespace TinyShell.Machine.Tool

/-- What is wrong with a size. -/
inductive SizeError where
  /-- It is no number. -/
  | noNumber
  /-- There is something else behind the number, which may be too large as well. -/
  | wrongEnd (large : Bool)
  | large
  deriving DecidableEq, Repr, Inhabited

/-- The largest number of 64 bits. -/
def maxCount : Nat := UInt64.size - 1

/-- The largest number of 63 bits, which is the largest size of a file. -/
def maxFileSize : Nat := 9223372036854775807

/-- How numbers and the letters behind them are read. -/
structure SizeFormat where
  /-- The letters that are known, and whether more may follow them to say of which unit they are. -/
  letters : String := ""
  units : Bool := false
  /-- Whether a zero before the digits stands for base eight, and `0x` for base sixteen. -/
  anyBase : Bool := false

namespace SizeFormat

/-- The power of 1000 or 1024 that a letter stands for. -/
def power? (letter : Char) : Option Nat :=
  (["kK", "mM", "gG", "tT", "P", "E", "Z", "Y", "R", "Q"].findIdx? (·.contains letter)).map (· + 1)

/-- What a known letter multiplies by, with what is left behind it. -/
def factor (format : SizeFormat) (letter : Char) (rest : List Char) : Nat × List Char :=
  match power? letter, format.units, rest with
  | some power, true, 'i' :: 'B' :: rest => (Nat.pow 1024 power, rest)
  | some power, true, 'B' :: rest | some power, true, 'D' :: rest => (Nat.pow 1000 power, rest)
  | some power, _, rest => (Nat.pow 1024 power, rest)
  | none, _, rest => (if letter = 'b' then 512 else 1, rest)

/-- The digits at the start of a text, with their base and what is left. -/
def digits (format : SizeFormat) (chars : List Char) : Nat × List Char × List Char :=
  let inBase (base : Nat) (chars : List Char) : Nat × List Char × List Char :=
    let digits := chars.takeWhile (Number.isDigitOf base)
    (base, digits, chars.drop digits.length)
  match format.anyBase, chars with
  | true, '0' :: x :: c :: rest =>
    if (x = 'x' || x = 'X') && Number.isDigitOf 16 c then inBase 16 (c :: rest) else inBase 8 chars
  | true, '0' :: _ => inBase 8 chars
  | _, _ => inBase 10 chars

/-- The number that a text is. A letter alone stands for one of its units. -/
def parse (format : SizeFormat) (text : String) : Except SizeError Nat :=
  let chars := text.toList.dropWhile Number.isSpaceChar
  let (base, digits, rest) := format.digits (if chars.head? = some '+' then chars.drop 1 else chars)
  let rest := if digits.isEmpty then text.toList else rest
  let value := if digits.isEmpty then 1 else Number.ofDigits base digits
  match rest with
  | [] => if digits.isEmpty then .error .noNumber
    else if maxCount < value then .error .large
    else .ok value
  | letter :: rest =>
    if format.letters.contains letter then
      let (factor, rest) := format.factor letter rest
      let large : Bool := maxCount < value * factor
      if !rest.isEmpty then .error (.wrongEnd large)
      else if large then .error .large
      else .ok (value * factor)
    else if digits.isEmpty then .error .noNumber
    else .error (.wrongEnd (maxCount < value))

end SizeFormat

/-- What is said of a wrong number: what it should be, and that it is too large if it is. -/
def SizeError.message (error : SizeError) (what text : String) : String :=
  "invalid " ++ what ++ ": " ++ Text.quotedWord text ++
    (if error = .large then ": Value too large for defined data type" else "")

/-- What is said of a wrong size that an option was given. -/
def SizeError.optionMessage (error : SizeError) (option text : String) : String :=
  match error with
  | noNumber => "invalid " ++ option ++ " argument '" ++ text ++ "'"
  | wrongEnd _ => "invalid suffix in " ++ option ++ " argument '" ++ text ++ "'"
  | large => option ++ " argument '" ++ text ++ "' too large"

/-- Any number without more. -/
def plainNumber : SizeFormat where

/-- A count of lines or bytes. -/
def countFormat : SizeFormat where
  letters := "bkKmMGTPEZYRQ"
  units := true

end TinyShell.Machine.Tool
