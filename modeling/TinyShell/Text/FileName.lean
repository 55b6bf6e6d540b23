import TinyShell.Text.Utf8

/-!
# Names and words in messages

Programs name a file as one would type it: plainly if it can be typed plainly, and between quotes
otherwise. Other words of a command line stand between single quotes, with backslashes before what
could be taken for something else. Bytes that do not print are written as escapes.
-/

namespace TinyShell.Text

/-- Whether a byte prints. -/
def isPrintable (byte : UInt8) : Bool := 0x20 ≤ byte && byte ≤ 0x7e

/-- The three octal digits of a byte. -/
def octal (byte : UInt8) : List Char :=
  let n := byte.toNat
  [Nat.digitChar (n / 64), Nat.digitChar (n / 8 % 8), Nat.digitChar (n % 8)]

/-- A byte that does not print: a letter for the common ones, and octal digits for all others. -/
def escape (byte : UInt8) : List Char :=
  let letters := if byte < 7 then [] else "abtnvfr".toList.drop (byte.toNat - 7)
  '\\' :: (match letters with
    | letter :: _ => [letter]
    | [] => octal byte)

/-! ## Words -/

/-- The inside of a word between quotes: `mark` and backslashes have a backslash before them, and
so have the bytes of `also`. -/
def escapedBytes (mark : UInt8) (also : Bytes) (bytes : Bytes) : List Char :=
  bytes.flatMap fun byte =>
    if byte = mark || byte = 0x5c || also.contains byte then ['\\', Char.ofNat byte.toNat]
    else if isPrintable byte then [Char.ofNat byte.toNat]
    else escape byte

/-- A word between single quotes. -/
def quotedWord (word : String) : String :=
  String.ofList ('\'' :: escapedBytes 0x27 [] (encode word) ++ ['\''])

/-! ## File names -/

/-- The bytes that have a meaning to a command line. -/
def isSpecial (byte : UInt8) : Bool :=
  (encode " !\"$&'()*;<=>?[\\^`|").contains byte

/-- The bytes that have a meaning at the start of a name. -/
def startsSpecial (byte : UInt8) : Bool := byte = 0x23 || byte = 0x7e

/-- Whether a name cannot be typed plainly. -/
def isAwkward (name : String) : Bool :=
  let bytes := encode name
  name.isEmpty || name = "\x7b" || name = "\x7d" || bytes.head?.any startsSpecial ||
    bytes.any isSpecial

/-- Whether a name can stand between double quotes as it is. -/
def fitsDoubleQuotes (bytes : Bytes) : Bool :=
  let fits (byte : UInt8) : Bool :=
    (Char.ofNat byte.toNat).isAlphanum || (encode " %'+,-./:@]_").contains byte
  (bytes.head?.all fun byte => fits byte || startsSpecial byte) && (bytes.drop 1).all fits

/-- The inside of single quotes; `escaping` while the bytes before were written as escapes. -/
def quotedBytes (escaping : Bool) : Bytes → List Char
  | [] => []
  | byte :: rest =>
    if byte = 0x27 then ['\'', '\\', '\'', '\''] ++ quotedBytes false rest
    else if isPrintable byte then
      let leave := if escaping then ['\'', '\''] else []
      leave ++ Char.ofNat byte.toNat :: quotedBytes false rest
    else
      let enter := if escaping then [] else ['\'', '$', '\'']
      enter ++ escape byte ++ quotedBytes true rest

/-- A name between quotes: double ones if it holds a single one and nothing that they would not
keep. A name that holds a single quote and ends in an escape begins as if it were inside one. -/
def quotedName (name : String) : String :=
  let bytes := encode name
  let quotes := bytes.contains 0x27
  if quotes && fitsDoubleQuotes bytes then "\"" ++ name ++ "\""
  else
    let escaping := quotes && bytes.getLast?.any (!isPrintable ·)
    String.ofList ('\'' :: quotedBytes escaping bytes ++ ['\''])

/-- A name, between quotes only if it needs them. A colon needs them too, because one follows. -/
def plainName (name : String) : String :=
  if isAwkward name || (encode name).any (fun byte => byte = 0x3a || !isPrintable byte) then
    quotedName name
  else
    name

end TinyShell.Text
