import TinyShell.Machine.Tool.Basic

/-!
# Orders

Texts in the order of their bytes, and in the order of the versions that they name.
-/

namespace TinyShell.Machine.Tool

open Text (Bytes)

/-- The order of bytes, a shorter text before its extensions. -/
def compareBytes : Bytes → Bytes → Ordering
  | [], [] => .eq
  | [], _ :: _ => .lt
  | _ :: _, [] => .gt
  | a :: as, b :: bs => if a < b then .lt else if b < a then .gt else compareBytes as bs

/-- A letter without its case. -/
def foldCase (byte : UInt8) : UInt8 := if 97 ≤ byte && byte ≤ 122 then byte - 32 else byte

def isDigitByte (byte : UInt8) : Bool := 48 ≤ byte && byte ≤ 57

def isLetterByte (byte : UInt8) : Bool := (65 ≤ foldCase byte && foldCase byte ≤ 90)

def charsOf (bytes : Bytes) : List Char := bytes.map fun byte => Char.ofNat byte.toNat

/-! ## Versions -/

/-- The weight of a byte of a version: a tilde is before everything, even the end, then come
numbers, letters and other bytes. -/
def versionWeight (byte : UInt8) : Int :=
  if isDigitByte byte then 0
  else if isLetterByte byte then byte.toNat
  else if byte = 126 then -2
  else byte.toNat + 256

/-- The weight of the end. -/
def endWeight : Int := -1

/-- The order of two runs without digits, up to the digits or the ends behind them. -/
def compareMarks : Bytes → Bytes → Ordering
  | [], [] => .eq
  | [], b :: _ => if isDigitByte b then .eq else compare endWeight (versionWeight b)
  | a :: _, [] => if isDigitByte a then .eq else compare (versionWeight a) endWeight
  | a :: as, b :: bs =>
    if isDigitByte a && isDigitByte b then .eq
    else (compare (versionWeight a) (versionWeight b)).then (compareMarks as bs)

/-- The order of versions: runs without digits and numbers by turns. `count` bounds the steps. -/
def compareRuns : (count : Nat) → Bytes → Bytes → Ordering
  | 0, _, _ => .eq
  | _, [], [] => .eq
  | count + 1, a, b =>
    let behind (bytes : Bytes) : Bytes := bytes.dropWhile (!isDigitByte ·)
    let number (bytes : Bytes) : Nat :=
      digitsValue (charsOf ((behind bytes).takeWhile isDigitByte))
    let rest (bytes : Bytes) : Bytes := (behind bytes).dropWhile isDigitByte
    ((compareMarks a b).then (compare (number a) (number b))).then
      (compareRuns count (rest a) (rest b))

/-- Whether bytes are suffixes of a file name, one after another: each is a dot and a letter, and
then letters and digits. `started` says that a letter was there since the last dot, and `dot` that
the last byte was one. -/
def areSuffixes (dot started : Bool) : Bytes → Bool
  | [] => !dot
  | byte :: rest =>
    if byte = 46 then !dot && areSuffixes true false rest
    else if isLetterByte byte || byte = 126 then (dot || started) && areSuffixes false true rest
    else isDigitByte byte && started && areSuffixes false true rest

/-- A file name without its suffixes. The first byte is no part of them. -/
def withoutSuffixes (bytes : Bytes) : Bytes :=
  let starts := (List.range bytes.length).filter fun count =>
    1 ≤ count && areSuffixes false false (bytes.drop count)
  bytes.take (starts.headD bytes.length)

/-- The rank of a name by its dots: none at all, one, two, a dot and more, other names. -/
def dotRank (bytes : Bytes) : Nat :=
  match bytes with
  | [] => 0
  | [46] => 1
  | [46, 46] => 2
  | 46 :: _ => 3
  | _ => 4

/-- The order of file names by the versions in them; suffixes count for names that are equal
without them. -/
def compareVersions (a b : Bytes) : Ordering :=
  let count := a.length + b.length + 1
  ((compare (dotRank a) (dotRank b)).then
    (compareRuns count (withoutSuffixes a) (withoutSuffixes b))).then (compareRuns count a b)

end TinyShell.Machine.Tool
