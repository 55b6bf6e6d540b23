import TinyShell.Machine.Tool.Options
import TinyShell.Machine.Tool.Size

/-!
# Parts of files

How much of a file is wanted, and the operands one after another.
-/

namespace TinyShell.Machine.Tool

open Text (Bytes)

/-- How much is wanted. -/
structure Amount where
  lines : Bool := true
  count : Nat := 10
  /-- Counted from the other end: all but so much at the end, or all from there on. -/
  inverted : Bool := false
  /-- What a line ends with. -/
  mark : UInt8 := 10
  deriving Inhabited

/-- The length of so many lines at the start. -/
def lengthOfLines (mark : UInt8) (count : Nat) (bytes : Bytes) : Nat :=
  (bytes.foldl (fun ((left, length) : Nat × Nat) byte =>
    if left = 0 then (0, length)
    else (if byte = mark then left - 1 else left, length + 1)) (count, 0)).2

/-- The number of lines; an unfinished one counts. -/
def lineCount (mark : UInt8) (bytes : Bytes) : Nat :=
  bytes.count mark + (if bytes.getLast?.any (· ≠ mark) then 1 else 0)

namespace Amount

/-- The length of all but the amount at the end. -/
def front (amount : Amount) (bytes : Bytes) : Nat :=
  if amount.lines then
    lengthOfLines amount.mark (lineCount amount.mark bytes - amount.count) bytes
  else
    bytes.length - amount.count

end Amount

/-- The amount that an option asks for; a value that starts with `sign` inverts it. -/
def Amount.parse (option value : String) (sign : Char) : Except String Amount := do
  let lines := option = "n"
  let inverted := value.toList.head? = some sign
  -- The sign that inverts nothing says nothing.
  let bare := value.toList.head? = some '-'
  let text := if bare then (value.drop 1).toString else value
  let count ← (countFormat.parse text).mapError
    (·.message (if lines then "number of lines" else "number of bytes") text)
  return { lines, count, inverted }

/-- The last amount that options ask for. -/
def Amount.ofArguments (arguments : Arguments) (sign : Char) : Amount :=
  let amount : Amount := match arguments.lastOf? ["n", "c"] with
    | none => {}
    | some (option, value) => ((parse option value sign).toOption).getD {}
  { amount with mark := if arguments.has "z" then 0 else 10 }

/-! ## Operands -/

/-- What a file is called in headers and messages. -/
def shownName (operand : String) : String := if operand = "-" then "standard input" else operand

/-- Bytes to standard output, or the end. -/
def passOn (bytes : Bytes) : Tool Unit := putOr "error writing 'standard output'" bytes

def complainOfReading (operand : String) (errno : Errno) : Tool Unit :=
  complain ("error reading " ++ Text.quotedName (shownName operand) ++ ": " ++ errorText errno)

/-- Whether there are headers between the operands. -/
def hasHeaders (arguments : Arguments) : Bool :=
  match arguments.lastOf? ["q", "v"] with
  | some (option, _) => option = "v"
  | none => 1 < arguments.inputs.length

/-- A part of each operand, with headers between them if there is more than one; whether all went
well, for each. -/
def parts (arguments : Arguments) (part : String → Descriptor → Tool Bool) :
    Tool (List (String × Bool)) := do
  let mut results : List (String × Bool) := []
  let mut first := true
  for operand in arguments.inputs do
    match ← openOperand operand with
    | .error errno =>
      complain ("cannot open " ++ Text.quotedName operand ++ " for reading: " ++ errorText errno)
      results := results ++ [(operand, false)]
    | .ok fd =>
      if hasHeaders arguments then
        passOn (Text.encode ((if first then "" else "\n") ++ "==> " ++ shownName operand ++
          " <==\n"))
      first := false
      let good ← part operand fd
      closeOperand operand fd
      results := results ++ [(operand, good)]
  return results

/-- Bytes that are read at a time. -/
def readSize : Nat := 8192

end TinyShell.Machine.Tool
