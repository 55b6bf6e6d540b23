import TinyShell.Text.Blank

/-!
# Numerals

Decimal numbers of 32 bits: how a status is written, and how the number at the start of a text is
read. Reading never fails; it wraps modulo 2³².
-/

namespace TinyShell.Text

/-- The number in decimal, with a sign if it is negative. -/
def decimal (value : Int32) : String := toString value.toInt

/-- The value of a digit. -/
def digitValue (c : Char) : Int32 := Int32.ofNat (c.toNat - '0'.toNat)

/-- The value of a run of digits, modulo 2³². -/
def magnitude (digits : List Char) : Int32 :=
  digits.foldl (fun value c => value * 10 + digitValue c) 0

/-- The number at the start of a text: blanks, at most one sign, then as many digits as follow.
Without digits it is zero. -/
def readDecimal (text : List Char) : Int32 :=
  match text.dropWhile isBlank with
  | '-' :: rest => -magnitude (rest.takeWhile Char.isDigit)
  | '+' :: rest => magnitude (rest.takeWhile Char.isDigit)
  | rest => magnitude (rest.takeWhile Char.isDigit)

end TinyShell.Text
