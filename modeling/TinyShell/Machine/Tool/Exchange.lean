import TinyShell.Machine.Tool.Echo

/-!
# tr

Bytes mapped to others, left out, or made into one where they repeat.
-/

namespace TinyShell.Machine.Tool

open Text (Bytes)

/-! ## Sets -/

/-- A part of a set. -/
inductive SetPart where
  | one (byte : UInt8)
  | range (first last : UInt8)
  | class (name : String)
  | equivalent (byte : UInt8)
  | repeated (byte : UInt8) (count : Nat)
  /-- As often as it takes to make the set as long as the other. -/
  | filling (byte : UInt8)
  deriving Repr, Inhabited

/-- All bytes from one to another. -/
def bytesFrom (first last : Nat) : Bytes :=
  (List.range (last + 1 - first)).map fun i => UInt8.ofNat (first + i)

/-- The bytes of a named class. -/
def classBytes? (name : String) : Option Bytes :=
  let digit := bytesFrom 48 57
  let upper := bytesFrom 65 90
  let lower := bytesFrom 97 122
  match name with
  | "alnum" => some (digit ++ upper ++ lower)
  | "alpha" => some (upper ++ lower)
  | "blank" => some [9, 32]
  | "cntrl" => some (bytesFrom 0 31 ++ [127])
  | "digit" => some digit
  | "graph" => some (bytesFrom 33 126)
  | "lower" => some lower
  | "print" => some (bytesFrom 32 126)
  | "punct" => some (bytesFrom 33 47 ++ bytesFrom 58 64 ++ bytesFrom 91 96 ++ bytesFrom 123 126)
  | "space" => some (bytesFrom 9 13 ++ [32])
  | "upper" => some upper
  | "xdigit" => some (digit ++ bytesFrom 65 70 ++ bytesFrom 97 102)
  | _ => none

/-- The bytes of a set before its ranges are filled in, each with whether it was escaped, and
whether a backslash at the end escapes nothing. `count` bounds the steps. -/
def setItems : (count : Nat) → Bytes → List (UInt8 × Bool) × Bool
  | 0, _ => ([], false)
  | _, [] => ([], false)
  | _, [92] => ([(92, false)], true)
  | count + 1, 92 :: byte :: rest =>
    let octal := ((byte :: rest).take 3).map fun b => Char.ofNat b.toNat
    let (value, used) := digits 8 3 octal
    -- Three digits can be too many for a byte.
    let (value, used) := if 255 < value then digits 8 2 octal else (value, used)
    let (item, rest) := if 0 < used then (UInt8.ofNat value, (byte :: rest).drop used)
      else
        let letter := Char.ofNat byte.toNat
        (if letter = 'e' then byte else (escaped? letter).getD byte, rest)
    let (items, unclosed) := setItems count rest
    ((item, true) :: items, unclosed)
  | count + 1, byte :: rest =>
    let (items, unclosed) := setItems count rest
    ((byte, false) :: items, unclosed)

/-- A byte in a message. -/
def shownByte (byte : UInt8) : String :=
  if byte = 92 then "\\\\"
  else if Text.isPrintable byte then (Char.ofNat byte.toNat).toString
  else "\\" ++ String.ofList (Text.octal byte)

/-- The length of what is before two closing bytes, if they come. -/
def closing? (mark : UInt8) : List (UInt8 × Bool) → Option Nat
  | (a, false) :: (b, false) :: rest =>
    if a = mark && b = 93 then some 0
    else (closing? mark ((b, false) :: rest)).map (· + 1)
  | _ :: rest => (closing? mark rest).map (· + 1)
  | [] => none

/-- What is in the brackets of `[x*n]` behind the star, if the items are of that form, and what is
left behind them. -/
def repetition? (items : List (UInt8 × Bool)) :
    Option (UInt8 × List Char × List (UInt8 × Bool)) :=
  match items with
  | (byte, _) :: (42, false) :: rest =>
    let inside := rest.takeWhile fun (b, escaped) => !escaped && b ≠ 93
    match rest.drop inside.length with
    | (93, false) :: rest => some (byte, inside.map fun (b, _) => Char.ofNat b.toNat, rest)
    | _ => none
  | _ => none

/-- The parts of a set, or what is wrong with it. `count` bounds the steps. -/
def setParts : (count : Nat) → List (UInt8 × Bool) → Except String (List SetPart)
  | 0, _ => .ok []
  | count + 1, items =>
    let next (part : SetPart) (rest : List (UInt8 × Bool)) : Except String (List SetPart) := do
      return part :: (← setParts count rest)
    let plain : Except String (List SetPart) :=
      match items with
      | [] => .ok []
      | (first, _) :: (45, false) :: (last, _) :: rest =>
        if last < first then
          .error ("range-endpoints of '" ++ shownByte first ++ "-" ++ shownByte last ++
            "' are in reverse collating sequence order")
        else next (.range first last) rest
      | (byte, _) :: rest => next (.one byte) rest
    let orRepeated : Except String (List SetPart) :=
      match items with
      | (91, false) :: inner =>
        match repetition? inner with
        | none => plain
        | some (byte, [], rest) => next (.filling byte) rest
        | some (byte, digits, rest) =>
          let base := if digits.head? = some '0' then 8 else 10
          if digits.all (Number.isDigitOf base) then
            let times := Number.ofDigits base digits
            if times = 0 then next (.filling byte) rest else next (.repeated byte times) rest
          else
            .error ("invalid repeat count '" ++ String.ofList digits ++
              "' in [c*n] construct")
      | _ => plain
    match items with
    | (91, false) :: (mark, false) :: inner =>
      if mark = 58 || mark = 61 then
        match closing? mark inner with
        | none => orRepeated
        | some length =>
          let name := (inner.take length).map (·.1)
          let rest := inner.drop (length + 2)
          let shown := String.join (name.map shownByte)
          if length = 0 then
            .error (if mark = 58 then "missing character class name '[::]'"
              else "missing equivalence class character '[==]'")
          else if mark = 58 then
            match classBytes? (Text.decode name) with
            | some _ => next (.class (Text.decode name)) rest
            | none =>
              if (repetition? ((mark, false) :: inner)).isSome then orRepeated
              else .error ("invalid character class '" ++ shown ++ "'")
          else
            match name with
            | [byte] => next (.equivalent byte) rest
            | _ =>
              if (repetition? ((mark, false) :: inner)).isSome then orRepeated
              else .error (shown ++ ": equivalence class operand must be a single character")
      else orRepeated
    | _ => orRepeated

namespace SetPart

/-- The bytes of a part, so many for one that fills. -/
def bytes (fill : Nat) : SetPart → Bytes
  | one byte | equivalent byte => [byte]
  | range first last => bytesFrom first.toNat last.toNat
  | .class name => (classBytes? name).getD []
  | repeated byte count => List.replicate count byte
  | filling byte => List.replicate fill byte

def isFilling : SetPart → Bool
  | filling _ => true
  | _ => false

def isEquivalent : SetPart → Bool
  | equivalent _ => true
  | _ => false

/-- The name of the class that the part is. -/
def className? : SetPart → Option String
  | .class name => some name
  | _ => none

/-- The places at which the classes of letters of one case start. -/
def caseClasses (fill : Nat) (parts : List SetPart) : List Nat :=
  (parts.foldl (fun ((place, found) : Nat × List Nat) part =>
    let isCase := part.className?.any fun name => name = "upper" || name = "lower"
    (place + (part.bytes fill).length, if isCase then place :: found else found)) (0, [])).2

end SetPart

/-- The bytes of a set. -/
def setBytes (fill : Nat) (parts : List SetPart) : Bytes := parts.flatMap (SetPart.bytes fill)

/-! ## What is asked for -/

/-- The map of bytes from one set to another, whose last byte stands for all beyond. -/
def exchanged (source target : Bytes) (byte : UInt8) : UInt8 :=
  match source.reverse.findIdx? (· = byte) with
  | none => byte
  | some index =>
    let place := source.length - 1 - index
    (target[place]?).getD ((target.getLast?).getD byte)

/-- A function of bytes as a table. -/
structure ByteTable (α : Type) where
  cells : Array α

namespace ByteTable

def of {α : Type} (f : UInt8 → α) : ByteTable α :=
  ⟨((List.range 256).map fun n => f (UInt8.ofNat n)).toArray⟩

def get {α : Type} [Inhabited α] (table : ByteTable α) (byte : UInt8) : α :=
  (table.cells[byte.toNat]?).getD default

end ByteTable

/-- What is to be done with the bytes. -/
structure Exchange where
  /-- What becomes of a byte; nothing for one that is left out. -/
  image : ByteTable (Option UInt8)
  /-- Whether runs of a byte are made into one. -/
  squeezes : ByteTable Bool

/-- The bytes that are not in a set, in order. -/
def complementOf (bytes : Bytes) : Bytes :=
  ((List.range 256).map UInt8.ofNat).filter (!bytes.contains ·)

/-- The second set made as long as the first, or what is wrong with the two. -/
def matchSets (complemented truncates : Bool) (first : List SetPart) (firstBytes : Bytes)
    (second : List SetPart) : Except String Bytes := do
  if second.any SetPart.isEquivalent then
    throw "[=c=] expressions may not appear in string2 when translating"
  if second.any fun part => part.className?.any fun name => name ≠ "upper" && name ≠ "lower" then
    throw ("when translating, the only character classes that may appear in\n" ++
      "string2 are 'upper' and 'lower'")
  let fill := firstBytes.length - (setBytes 0 second).length
  let bytes := setBytes fill second
  unless complemented do
    let starts := SetPart.caseClasses 0 first
    if (SetPart.caseClasses fill second).any (!starts.contains ·) then
      throw "misaligned [:upper:] and/or [:lower:] construct"
  if bytes.length < firstBytes.length && !truncates then
    if bytes.isEmpty then
      throw "when not truncating set1, string2 must be non-empty"
    if (second.getLast?.bind SetPart.className?).isSome then
      throw ("when translating with string1 longer than string2,\n" ++
        "the latter string must not end with a character class")
  if complemented && first.any (·.className?.isSome) &&
      (bytes.eraseDups.length ≠ 1 || firstBytes.length < bytes.length) then
    throw ("when translating with complemented character classes,\n" ++
      "string2 must map all characters in the domain to one")
  return bytes

/-- What options and sets ask for, or what is wrong with them. -/
def Exchange.of (arguments : Arguments) (first : List SetPart) (second : Option (List SetPart)) :
    Except String Exchange := do
  let deletes := arguments.has "d"
  let complemented := arguments.has "c"
  let firstBytes := setBytes 0 first
  let firstBytes := if complemented then complementOf firstBytes else firstBytes
  if first.any SetPart.isFilling then
    throw "the [c*] repeat construct may not appear in string1"
  let kept : ByteTable (Option UInt8) :=
    .of fun byte => if deletes && firstBytes.contains byte then none else some byte
  match second with
  | none => return ⟨kept, .of fun byte => !deletes && firstBytes.contains byte⟩
  | some second =>
    if 1 < second.countP SetPart.isFilling then
      throw "only one [c*] repeat construct may appear in string2"
    if deletes then
      if second.any SetPart.isFilling then
        throw "the [c*] construct may appear in string2 only when translating"
      return ⟨kept, .of (setBytes 0 second).contains⟩
    let secondBytes ← matchSets complemented (arguments.has "t") first firstBytes second
    let source := if arguments.has "t" then firstBytes.take secondBytes.length else firstBytes
    return ⟨.of fun byte => some (exchanged source secondBytes byte),
      .of fun byte => arguments.has "s" && secondBytes.contains byte⟩

namespace Exchange

/-- Bytes as they come out, `last` being the byte that came out before them. -/
def apply (exchange : Exchange) (last : Option UInt8) (bytes : Bytes) :
    Bytes × Option UInt8 :=
  let (out, last) := bytes.foldl (fun ((out, last) : Bytes × Option UInt8) byte =>
    match exchange.image.get byte with
    | none => (out, last)
    | some byte =>
      if last = some byte && exchange.squeezes.get byte then (out, last)
      else (byte :: out, some byte)) ([], last)
  (out.reverse, last)

end Exchange

/-! ## tr -/

def trGrammar : Grammar where
  plain := "AcCdst"
  names := [("complement", "c", .nothing), ("delete", "d", .nothing),
    ("squeeze-repeats", "s", .nothing), ("truncate-set1", "t", .nothing)]
  ordered := true

/-- The parts of a set, or the end. -/
def parseSet (text : String) : Tool (List SetPart) := do
  let bytes := Text.encode text
  let (items, unfinished) := setItems bytes.length bytes
  if unfinished then
    complain "warning: an unescaped backslash at end of string is not portable"
  match setParts (bytes.length + 1) items with
  | .ok parts => return parts
  | .error message => die message 1

/-- The end because of the number of sets, with what is said about it. -/
def refuseSets (message hint : String) : Tool Status := do
  complain message
  say (hint ++ "\n")
  say ("Try '" ++ (← read) ++ " --help' for more information.\n")
  return 1

def tr (args : List String) : Tool Status := do
  let arguments ← parseArguments trGrammar 1 args
  let arguments := { arguments with
    options := arguments.options.map fun (option, value) =>
      (if option = "C" then "c" else option, value) }
  let deletes := arguments.has "d"
  let squeezes := arguments.has "s"
  match arguments.operands with
  | [] => refuse "missing operand" 1
  | [first] =>
    if deletes == squeezes then
      refuseSets ("missing operand after " ++ Text.quotedWord first)
        (if deletes then "Two strings must be given when both deleting and squeezing repeats."
          else "Two strings must be given when translating.")
    else
      work arguments first none
  | [first, second] =>
    if deletes && !squeezes then
      refuseSets ("extra operand " ++ Text.quotedWord second)
        "Only one string may be given when deleting without squeezing repeats."
    else
      work arguments first (some second)
  | _ :: second :: third :: _ =>
    let extra := if deletes && !squeezes then second else third
    refuse ("extra operand " ++ Text.quotedWord extra) 1
where
  work (arguments : Arguments) (first : String) (second : Option String) : Tool Status := do
    let firstParts ← parseSet first
    let secondParts ← second.mapM parseSet
    match Exchange.of arguments firstParts secondParts with
    | .error message => die message 1
    | .ok exchange =>
      let (result, _) ← foldBlocks .input 8192 (none : Option UInt8) fun last bytes => do
        let (bytes, last) := exchange.apply last bytes
        if let .error errno ← put bytes then
          die ("write error: " ++ errorText errno) 1
        return (last, true)
      match result with
      | .ok () => return 0
      | .error errno => die ("read error: " ++ errorText errno) 1

end TinyShell.Machine.Tool
