import TinyShell.Machine.Tool.Part

/-!
# head

The parts of files at the start.
-/

namespace TinyShell.Machine.Tool

open Text (Bytes)

/-- So many bytes at the start of an open file, and not one more. -/
def copyBytes (operand : String) (fd : Descriptor) (count : Nat) : Tool Bool :=
  iterate (fun left => do
    if left = 0 then
      return .inr true
    match ← readBlock fd (min left readSize) with
    | .error errno =>
      complainOfReading operand errno
      return .inr false
    | .ok [] => return .inr true
    | .ok bytes =>
      passOn bytes
      return .inl (left - bytes.length)) count

/-- So many lines at the start of an open file. What was read beyond them is given back if that
can be done. -/
def copyLines (operand : String) (fd : Descriptor) (mark : UInt8) (count : Nat) : Tool Bool :=
  iterate (fun left => do
    if left = 0 then
      return .inr true
    match ← readBlock fd readSize with
    | .error errno =>
      complainOfReading operand errno
      return .inr false
    | .ok [] => return .inr true
    | .ok bytes =>
      let wanted := lengthOfLines mark left bytes
      let left := left - (bytes.take wanted).count mark
      if left = 0 then
        if let .ok status ← call (.inspectOpen fd) then
          call (.seek fd (status.offset - (bytes.length - wanted)))
      passOn (bytes.take wanted)
      return .inl left) count

/-- The part that `head` shows of an open file. -/
def headPart (amount : Amount) (operand : String) (fd : Descriptor) : Tool Bool :=
  if amount.inverted then do
    match ← readAll fd with
    | .error errno =>
      complainOfReading operand errno
      return false
    | .ok bytes =>
      passOn (bytes.take (amount.front bytes))
      return true
  else if amount.lines then copyLines operand fd amount.mark amount.count
  else copyBytes operand fd amount.count

/-! ## head -/

def headGrammar : Grammar where
  plain := "qvz0123456789"
  valued := "nc"
  names := [("bytes", "c", .value), ("lines", "n", .value),
    ("-presume-input-pipe", "presume-input-pipe", .nothing), ("quiet", "q", .nothing),
    ("silent", "q", .nothing), ("verbose", "v", .nothing), ("zero-terminated", "z", .nothing)]

/-- An option with a value that is known to be right. Digits mean something in a first word only. -/
def settleHead (option value : String) : Tool (String × String) := do
  if option = "n" || option = "c" then
    if let .error message := Amount.parse option value '-' then
      die message 1
  else if option.all Char.isDigit then
    refuse ("invalid trailing option -- " ++ option) 1
  return (option, value)

/-- What a first word such as `-5` stands for: a number, and letters that say what is counted and
what is said; the first letter that says nothing is refused. -/
def shortHead : List String → Except Char (List String)
  | word :: rest =>
    match word.toList with
    | '-' :: digit :: more =>
      if !digit.isDigit then .ok (word :: rest)
      else
        let count := (digit :: more).takeWhile Char.isDigit
        let letters := more.drop (count.length - 1)
        match letters.find? (!"bckmlqvz".contains ·) with
        | some letter => .error letter
        | none =>
          let unit := (letters.reverse.find? ("bckm".contains ·)).filter (· ≠ 'c')
          let value := String.ofList (count ++ unit.toList)
          let counted := match letters.reverse.find? ("bckml".contains ·) with
            | some 'l' | none => "-n"
            | some _ => "-c"
          let others := (letters.filter ("qvz".contains ·)).map fun c => "-" ++ c.toString
          .ok (counted :: value :: others ++ rest)
    | _ => .ok (word :: rest)
  | [] => .ok []

def head (args : List String) : Tool Status := do
  let words ← match shortHead args with
    | .ok words => pure words
    | .error letter => do
      report (Text.encode "invalid trailing option -- " ++ letterByte letter)
      leaveWithHint 1
  let arguments ← parseArguments headGrammar 1 words fun _ option value => settleHead option value
  let amount := Amount.ofArguments arguments '-'
  if !amount.lines && amount.inverted && maxFileSize < amount.count then
    die (SizeError.large.message "number of bytes" (toString amount.count)) 1
  let results ← parts arguments (headPart amount)
  closeInput arguments.inputs "-"
  return if results.all (·.2) then 0 else 1

end TinyShell.Machine.Tool
