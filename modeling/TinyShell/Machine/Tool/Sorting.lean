import TinyShell.Machine.Tool.Key

/-!
# Sorting

Lines in the order of their bytes, or of keys inside them.
-/

namespace TinyShell.Machine.Tool

open Text (Bytes)

/-- The plain number at the start of a text, with what is left; zero without digits. -/
def leadingNumber (bytes : Bytes) : Number × Bytes :=
  let bytes := bytes.dropWhile isBlank
  let (negative, bytes) := match bytes with
    | 45 :: rest => (true, rest)
    | rest => (false, rest)
  let whole := bytes.takeWhile isDigitByte
  let rest := bytes.drop whole.length
  let (fraction, rest) := match rest with
    | 46 :: rest => (rest.takeWhile isDigitByte, rest.dropWhile isDigitByte)
    | rest => ([], rest)
  (.finite negative (digitsValue (charsOf (whole ++ fraction))) (Nat.pow 10 fraction.length), rest)

/-- The rank of the letter behind a number that stands for thousands, millions and so on; it is
negative for a negative number, and zero for none. -/
def humanRank (number : Number) (rest : Bytes) : Int :=
  let ranks := ["kK", "M", "G", "T", "P", "E", "Z", "Y"]
  let rank : Nat := match charsOf (rest.take 1) with
    | [letter] => ((ranks.findIdx? (·.contains letter)).map (· + 1)).getD 0
    | _ => 0
  match number with
  | .finite negative num _ => if num = 0 then 0 else if negative then -(rank : Int) else rank
  | _ => 0

/-- The number of the month that a text starts with. -/
def monthNumber (bytes : Bytes) : Nat :=
  let names := ["JAN", "FEB", "MAR", "APR", "MAY", "JUN", "JUL", "AUG", "SEP", "OCT", "NOV", "DEC"]
  let start := String.ofList (charsOf (((bytes.dropWhile isBlank).take 3).map foldCase))
  ((names.idxOf? start).map (· + 1)).getD 0

namespace Key

/-- The bytes of a key that count. -/
def visible (key : Key) (bytes : Bytes) : Bytes :=
  let bytes := if key.dictionary then
      bytes.filter fun b => isBlank b || isDigitByte b || isLetterByte b
    else if key.printing then bytes.filter Text.isPrintable
    else bytes
  if key.folds then bytes.map foldCase else bytes

end Key

/-- What a key is compared by. -/
inductive KeyValue where
  | bytes (bytes : Bytes)
  | number (number : Number)
  /-- Nothing for a text that is no number. -/
  | general (number : Option Number)
  | human (rank : Int) (number : Number)
  | month (number : Nat)
  | version (bytes : Bytes)
  deriving Inhabited

/-- What a key of these bytes is compared by. -/
def Key.value (key : Key) (bytes : Bytes) : KeyValue :=
  let bytes := key.visible bytes
  match key.measure with
  | .bytes => .bytes bytes
  | .number => .number (leadingNumber bytes).1
  | .general => .general ((Number.read? (charsOf bytes)).map (·.1.kept))
  | .human =>
    let (number, rest) := leadingNumber bytes
    .human (humanRank number rest) number
  | .month => .month (monthNumber bytes)
  | .version => .version bytes

/-- The order of two keys that are compared by the same. -/
def KeyValue.compare : KeyValue → KeyValue → Ordering
  | bytes a, bytes b => compareBytes a b
  | number a, number b => a.compare b
  | general (some a), general (some b) => a.compare b
  | general none, general (some _) => .lt
  | general (some _), general none => .gt
  | human rank a, human rank' b => (Ord.compare rank rank').then (a.compare b)
  | month a, month b => Ord.compare a b
  | version a, version b => compareVersions a b
  | _, _ => .eq

/-- A line with what its keys are compared by. -/
structure KeyedLine where
  line : Bytes
  values : List KeyValue
  deriving Inhabited

/-- How lines are ordered. -/
structure Sorting where
  keys : List Key
  separator : Option UInt8
  /-- Whether the whole order is turned round where keys leave it open. -/
  reverse : Bool
  stable : Bool
  unique : Bool

namespace Sorting

def keyed (sorting : Sorting) (line : Bytes) : KeyedLine :=
  ⟨line, sorting.keys.map fun key => key.value (key.field sorting.separator line)⟩

/-- The order of the keys of two lines. -/
def byKeys : List Key → List KeyValue → List KeyValue → Ordering
  | key :: keys, a :: as, b :: bs =>
    match a.compare b with
    | .eq => byKeys keys as bs
    | order => if key.reverse then order.swap else order
  | _, _, _ => .eq

/-- The order of whole lines: what the keys leave open, their bytes decide. -/
def compare (sorting : Sorting) (a b : KeyedLine) : Ordering :=
  match byKeys sorting.keys a.values b.values with
  | .eq =>
    if !sorting.keys.isEmpty && (sorting.stable || sorting.unique) then .eq
    else
      let order := compareBytes a.line b.line
      if sorting.reverse then order.swap else order
  | found => found

/-- Neighbours that are equal in order made into the first of them. -/
def distinct (sorting : Sorting) (rows : List KeyedLine) : List KeyedLine :=
  (rows.foldl (fun (kept : List KeyedLine) row =>
    match kept with
    | last :: _ => if sorting.compare last row = .eq then kept else row :: kept
    | [] => [row]) []).reverse

def le (sorting : Sorting) (a b : KeyedLine) : Bool := sorting.compare a b ≠ .gt

/-- Lines in order as they are written. -/
def written (sorting : Sorting) (rows : List KeyedLine) : List Bytes :=
  (if sorting.unique then sorting.distinct rows else rows).map (·.line)

/-- The lines in order. -/
def apply (sorting : Sorting) (lines : List Bytes) : List Bytes :=
  sorting.written ((lines.map sorting.keyed).mergeSort sorting.le)

/-- The lines of several texts, each of which is in order. -/
def merge (sorting : Sorting) (texts : List (List Bytes)) : List Bytes :=
  sorting.written ((texts.map (·.map sorting.keyed)).foldl (fun merged rows =>
    List.merge merged rows sorting.le) [])

/-- The number and text of the first line that is out of order. -/
def disorder? (sorting : Sorting) (lines : List Bytes) : Option (Nat × Bytes) :=
  let rows := lines.map sorting.keyed
  let wrong (a b : KeyedLine) : Bool :=
    match sorting.compare a b with
    | .gt => true
    | .eq => sorting.unique
    | .lt => false
  (((rows.zip (rows.drop 1)).zipIdx).find? fun ((a, b), _) => wrong a b).map
    fun ((_, b), index) => (index + 2, b.line)

end Sorting

end TinyShell.Machine.Tool
