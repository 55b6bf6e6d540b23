/-!
# Numbers as text

Numbers with a point or an exponent, exactly: how they are read, how they come out when they are
kept in so many binary digits, and how a format lays them out.
-/

namespace TinyShell.Machine

/-- A number; a finite one is `num / den`, and `den` is not zero. -/
inductive Number where
  | finite (negative : Bool) (num den : Nat)
  | infinite (negative : Bool)
  | notANumber
  deriving DecidableEq, Repr, Inhabited

namespace Number

def ofInt (n : Int) : Number := .finite (n < 0) n.natAbs 1

def isNegative : Number → Bool
  | finite negative .. | infinite negative => negative
  | notANumber => false

def isFinite : Number → Bool
  | finite .. => true
  | _ => false

/-- A numerator with its sign. -/
def signed (negative : Bool) (num : Nat) : Int := if negative then -(num : Int) else num

/-- The order of numbers, zero having no sign; one that is no number is below all others. -/
def compare : Number → Number → Ordering
  | notANumber, notANumber => .eq
  | notANumber, _ => .lt
  | _, notANumber => .gt
  | infinite a, infinite b => Ord.compare b a
  | infinite negative, finite .. => if negative then .lt else .gt
  | finite .., infinite negative => if negative then .gt else .lt
  | finite a num den, finite b num' den' =>
    Ord.compare (signed a (num * den')) (signed b (num' * den))

def add : Number → Number → Number
  | finite a num den, finite b num' den' =>
    let sum := signed a (num * den') + signed b (num' * den)
    .finite (sum < 0) sum.natAbs (den * den')
  | infinite a, infinite b => if a = b then .infinite a else .notANumber
  | infinite a, finite .. => .infinite a
  | finite .., infinite b => .infinite b
  | _, _ => .notANumber

/-- The sum of so many times the same number, at least one. -/
def times (number : Number) (count : Nat) : Number :=
  match number with
  | finite negative num den => .finite negative (num * count) den
  | number => number

/-! ## Whole numbers of 64 bits -/

def largest : Int := Int64.maxValue.toInt

def smallest : Int := Int64.minValue.toInt

/-- The number within the bounds that is next to a whole number. -/
def clamp (n : Int) : Int := max smallest (min largest n)

/-! ## Reading -/

/-- The value of a digit up to base 36. -/
def digitValue? (c : Char) : Option Nat :=
  if c.isDigit then some (c.toNat - '0'.toNat)
  else if 'a' ≤ c ∧ c ≤ 'z' then some (c.toNat - 'a'.toNat + 10)
  else if 'A' ≤ c ∧ c ≤ 'Z' then some (c.toNat - 'A'.toNat + 10)
  else none

def isDigitOf (base : Nat) (c : Char) : Bool := (digitValue? c).any (· < base)

/-- The number that digits write. -/
def ofDigits (base : Nat) (digits : List Char) : Nat :=
  digits.foldl (fun n c => n * base + (digitValue? c).getD 0) 0

/-- The exponent at the start of a text, behind one of two letters, with what is left. -/
def readExponent (lower upper : Char) (chars : List Char) : Int × List Char :=
  match chars with
  | c :: rest =>
    if c = lower || c = upper then
      let (negative, digits) := match rest with
        | '-' :: rest => (true, rest)
        | '+' :: rest => (false, rest)
        | rest => (false, rest)
      let count := digits.takeWhile Char.isDigit
      if count.isEmpty then (0, chars)
      else
        -- No text is so long that a larger exponent would make a difference.
        let value : Int := min (ofDigits 10 count) 100000
        (if negative then -value else value, digits.drop count.length)
    else (0, chars)
  | [] => (0, [])

/-- A magnitude times a power of a base. -/
def scaled (negative : Bool) (digits : Nat) (base : Nat) (power : Int) : Number :=
  if digits = 0 then .finite negative 0 1
  else if 0 ≤ power then .finite negative (digits * Nat.pow base power.toNat) 1
  else .finite negative digits (Nat.pow base (-power).toNat)

/-- The number without sign at the start of a text, with what is left; nothing if there is none. -/
def readMagnitude (negative : Bool) (chars : List Char) : Option (Number × List Char) :=
  let folded := (chars.take 8).map Char.toLower
  let (base, shift, body) := match chars with
    | '0' :: x :: rest =>
      let body := if rest.head? = some '.' then rest.drop 1 else rest
      if (x = 'x' || x = 'X') && body.head?.any (isDigitOf 16) then (16, 4, rest)
      else (10, 1, chars)
    | _ => (10, 1, chars)
  let whole := body.takeWhile (isDigitOf base)
  let behind := body.drop whole.length
  let fraction := if behind.head? = some '.' then (behind.drop 1).takeWhile (isDigitOf base) else []
  if whole.isEmpty && fraction.isEmpty then
    if "infinity".toList.isPrefixOf folded then some (.infinite negative, chars.drop 8)
    else if "inf".toList.isPrefixOf folded then some (.infinite negative, chars.drop 3)
    else if "nan".toList.isPrefixOf folded then some (.notANumber, chars.drop 3)
    else none
  else
    let rest := if behind.head? = some '.' then (behind.drop 1).drop fraction.length else behind
    let digits := ofDigits base (whole ++ fraction)
    if base = 16 then
      let (power, rest) := readExponent 'p' 'P' rest
      some (scaled negative digits 2 (power - shift * fraction.length), rest)
    else
      let (power, rest) := readExponent 'e' 'E' rest
      some (scaled negative digits 10 (power - fraction.length), rest)

def isSpaceChar (c : Char) : Bool := c = ' ' || (9 ≤ c.toNat && c.toNat ≤ 13)

/-- The number at the start of a text, with what is left; nothing if there is none. -/
def read? (chars : List Char) : Option (Number × List Char) :=
  match chars.dropWhile isSpaceChar with
  | '-' :: rest => readMagnitude true rest
  | '+' :: rest => readMagnitude false rest
  | rest => readMagnitude false rest

/-- A text that is a number as a whole. -/
def parse? (text : String) : Option Number :=
  match read? text.toList with
  | some (number, []) => some number
  | _ => none

/-! ## Rounding -/

/-- A quotient rounded to the nearest whole number, a half to the even one. -/
def roundDiv (num den : Nat) : Nat :=
  let quotient := num / den
  let twice := 2 * (num % den)
  if twice < den then quotient
  else if den < twice then quotient + 1
  else quotient + quotient % 2

/-- A finite number rounded to so many binary digits. -/
def rounded (bits : Nat) : Number → Number
  | finite negative num den =>
    if num = 0 then .finite negative 0 1
    else
      -- The quotient has `length` binary digits before the point, or one less.
      let length : Int := (num.log2 : Int) - den.log2 + 1
      let shift : Int := bits - length
      let up : Nat := shift.toNat
      let down : Nat := (-shift).toNat
      let value := roundDiv (num <<< up) (den <<< down)
      -- One digit too few is made up for by another round.
      let short := value < 1 <<< (bits - 1)
      let value := if short then roundDiv (num <<< (up + 1)) (den <<< down) else value
      let up := if short then up + 1 else up
      .finite negative (value <<< down) (1 <<< up)
  | number => number

/-- The power of two of the first binary digit of a number, zero apart. -/
def binaryPower? : Number → Option Int
  | finite _ num den =>
    if num = 0 then none
    else if den <<< (num.log2 - den.log2) ≤ num <<< (den.log2 - num.log2) then
      some ((num.log2 : Int) - den.log2)
    else some ((num.log2 : Int) - den.log2 - 1)
  | _ => none

/-- The number as 64 binary digits and a power of two keep it: what is too large is infinite, and
what is too small is zero. -/
def kept (number : Number) : Number :=
  let rounded := number.rounded 64
  match rounded, rounded.binaryPower? with
  | .finite negative _ _, some power =>
    if 16384 ≤ power then .infinite negative
    else if power < -16446 then .finite negative 0 1
    else rounded
  | _, _ => rounded

/-- Whether all 64 digits of a number are kept, or none is needed because it is zero. -/
def isKept (number : Number) : Bool :=
  match number, number.kept with
  | .finite .., .infinite _ => false
  | _, kept => kept.binaryPower?.all (-16382 ≤ ·)

/-! ## Writing -/

def zeros (count : Nat) : String := String.ofList (List.replicate count '0')

/-- A number of units as text, the last `places` digits behind a point. -/
def withPoint (units places : Nat) (pointed : Bool) : String :=
  let digits := toString units
  let digits := zeros (places + 1 - digits.length) ++ digits
  let whole := digits.dropEnd places
  if places = 0 then (if pointed then digits ++ "." else digits)
  else whole.toString ++ "." ++ (digits.drop (digits.length - places)).toString

/-- The magnitude with so many places. -/
def fixed (num den places : Nat) (pointed : Bool) : String :=
  withPoint (roundDiv (num * Nat.pow 10 places) den) places pointed

/-- The power of ten of the first digit. -/
def magnitude (num den : Nat) : Int :=
  if num = 0 then 0
  else if den ≤ num then (toString (num / den)).length - 1
  else
    let guess := (toString den).length - (toString num).length
    if den ≤ num * Nat.pow 10 guess then -(guess : Int) else -(guess + 1 : Int)

/-- The first `places + 1` digits as a whole number, and the power of ten of the first of them. -/
def leading (num den places : Nat) : Nat × Int :=
  let power := magnitude num den
  let shift : Int := places - power
  let digits := roundDiv (num * Nat.pow 10 shift.toNat) (den * Nat.pow 10 (-shift).toNat)
  if digits = Nat.pow 10 (places + 1) then (Nat.pow 10 places, power + 1) else (digits, power)

/-- A power of ten as it stands behind a number. -/
def exponentText (power : Int) : String :=
  let digits := toString power.natAbs
  (if power < 0 then "e-" else "e+") ++ (if digits.length < 2 then "0" else "") ++ digits

/-- The magnitude with one digit before the point, so many behind it, and a power of ten. -/
def scientific (num den places : Nat) (pointed : Bool) : String :=
  let (digits, power) := leading num den places
  withPoint digits places pointed ++ exponentText power

/-- A text without the zeros at its end, and without a point there. -/
def trimZeros (text : String) : String :=
  if text.contains '.' then
    let chars := text.toList.reverse.dropWhile (· = '0')
    String.ofList (if chars.head? = some '.' then chars.drop 1 else chars).reverse
  else text

/-- The magnitude with so many digits in all, positional unless that would take many zeros. -/
def general (num den precision : Nat) (alternate : Bool) : String :=
  let count := max precision 1
  let (digits, power) := leading num den (count - 1)
  let trim (text : String) : String := if alternate then text else trimZeros text
  if -4 ≤ power ∧ power < count then
    trim (fixed num den ((count : Int) - 1 - power).toNat alternate)
  else
    trim (withPoint digits (count - 1) alternate) ++ exponentText power

/-- The mantissa in base 16 of a magnitude of so many binary digits, with the power of two behind
it. There are as many places as it takes if nothing is said about them. -/
def hexadecimal (bits num den : Nat) (places : Option Nat) (pointed : Bool) : String :=
  -- The digits behind the point are whole, and what is left stands before it.
  let digits := (bits - 1) / 4
  let power := ((finite false num den).binaryPower?).getD 0
  let shift : Int := bits - 1 - power
  let mantissa := roundDiv (num <<< shift.toNat) (den <<< (-shift).toNat)
  let kept := min (places.getD digits) digits
  let mantissa := roundDiv mantissa (1 <<< (4 * (digits - kept)))
  let exponent := if num = 0 then 0 else power - ((bits - 1) % 4 : Nat)
  -- Rounding up can make a further digit.
  let carried := mantissa >>> (4 * kept) = 16
  let exponent := if carried then exponent + 4 else exponent
  let text := Nat.toDigits 16 (if carried then mantissa >>> 4 else mantissa)
  let text := String.ofList (List.replicate (kept + 1 - text.length) '0' ++ text)
  let fraction := (text.drop 1).toString
  let fraction := match places with
    | some places => fraction ++ zeros (places - kept)
    | none => (fraction.dropEndWhile (· = '0')).toString
  (text.take 1).toString ++ (if pointed || !fraction.isEmpty then "." else "") ++ fraction ++
    (if exponent < 0 then "p-" else "p+") ++ toString exponent.natAbs

end Number

/-! ## Formats -/

/-- How a value is laid out in a field. -/
structure Layout where
  left : Bool := false
  plus : Bool := false
  blank : Bool := false
  alternate : Bool := false
  zero : Bool := false
  width : Nat := 0
  precision : Option Nat := none
  deriving Repr, Inhabited

namespace Layout

/-- The layout with one more flag; nothing for a character that is none. -/
def flag? (layout : Layout) : Char → Option Layout
  | '-' => some { layout with left := true }
  | '+' => some { layout with plus := true }
  | ' ' => some { layout with blank := true }
  | '#' => some { layout with alternate := true }
  | '0' => some { layout with zero := true }
  | _ => none

/-- A field with a sign and a body; zeros stand between them if `fills` allows it. -/
def fill (layout : Layout) (sign body : String) (fills : Bool) : String :=
  let missing := layout.width - (sign.length + body.length)
  let blanks := String.ofList (List.replicate missing ' ')
  if layout.left then sign ++ body ++ blanks
  else if layout.zero && fills then sign ++ Number.zeros missing ++ body
  else blanks ++ sign ++ body

def sign (layout : Layout) (negative : Bool) : String :=
  if negative then "-" else if layout.plus then "+" else if layout.blank then " " else ""

/-- A number of so many binary digits in one of the forms `a`, `e`, `f` and `g`, in upper case or
lower. -/
def number (layout : Layout) (bits : Nat) (form : Char) (number : Number) : String :=
  let precision := layout.precision.getD 6
  let sign := layout.sign number.isNegative
  let cased (text : String) : String := if form.isUpper then text.map Char.toUpper else text
  match number with
  | .notANumber => layout.fill sign (cased "nan") false
  | .infinite _ => layout.fill sign (cased "inf") false
  | .finite _ num den =>
    let sign := if form.toLower = 'a' then sign ++ cased "0x" else sign
    let body := match form.toLower with
      | 'a' => Number.hexadecimal bits num den layout.precision layout.alternate
      | 'e' => Number.scientific num den precision layout.alternate
      | 'f' => Number.fixed num den precision layout.alternate
      | _ => Number.general num den precision layout.alternate
    layout.fill sign (cased body) true

/-- A whole number in a base, `lead` being what shows the base if that is asked for. -/
def whole (layout : Layout) (negative : Bool) (magnitude base : Nat) (lead : String)
    (upper : Bool) : String :=
  let digits := String.ofList (Nat.toDigits base magnitude)
  let digits := if upper then digits.map Char.toUpper else digits
  let digits := if layout.precision = some 0 && magnitude = 0 then "" else digits
  let digits := Number.zeros ((layout.precision.getD 0) - digits.length) ++ digits
  let lead := if lead = "0" then (if digits.startsWith "0" then "" else lead)
    else if magnitude = 0 then "" else lead
  layout.fill (layout.sign negative ++ lead) digits layout.precision.isNone

end Layout

end TinyShell.Machine
