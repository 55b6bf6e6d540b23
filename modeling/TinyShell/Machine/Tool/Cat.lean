import TinyShell.Machine.Tool.Options

/-!
# cat

Files one after another, with numbers and marks on demand.
-/

namespace TinyShell.Machine.Tool

open Text (Bytes)

/-- What is marked in the output. -/
structure Marks where
  number : Bool
  numberFull : Bool
  squeeze : Bool
  ends : Bool
  tabs : Bool
  hidden : Bool
  deriving Inhabited

def Marks.ofArguments (arguments : Arguments) : Marks :=
  let any (options : List String) : Bool := options.any arguments.has
  { number := arguments.has "n"
    numberFull := arguments.has "b"
    squeeze := arguments.has "s"
    ends := any ["A", "e", "E"]
    tabs := any ["A", "t", "T"]
    hidden := any ["A", "e", "t", "v"] }

def Marks.isEmpty (marks : Marks) : Bool :=
  !(marks.number || marks.numberFull || marks.squeeze || marks.ends || marks.tabs || marks.hidden)

/-- What is known between two bytes. -/
structure Marking where
  /-- The number of the next line. -/
  number : Nat := 1
  /-- At the start of a line, how many empty lines are before it; nothing inside a line. -/
  blanks : Option Nat := some 0
  /-- Whether a carriage return is held back: it is marked if it stands before the end of a line
  that is marked. -/
  returned : Bool := false
  deriving Inhabited

namespace Marking

/-- The number of a line, if it has one. -/
def numbered (marking : Marking) (counts : Bool) : Bytes × Marking :=
  if counts then (padded 6 marking.number ++ [9], { marking with number := marking.number + 1 })
  else ([], marking)

/-- A byte that is not to be taken for anything else. -/
def caret (byte : UInt8) : Bytes :=
  let low := byte % 128
  let mark := if low < 32 then [94, low + 64] else if low = 127 then [94, 63] else [low]
  if byte < 128 then mark else [77, 45] ++ mark

/-- A byte inside a line. -/
def shown (marks : Marks) (byte : UInt8) : Bytes :=
  if byte = 9 then (if marks.tabs then caret byte else [byte])
  else if marks.hidden then caret byte
  else [byte]

/-- A newline, with what stands before it. -/
def newline (marks : Marks) (marking : Marking) : Bytes × Marking :=
  let ends : Bytes := if marks.ends then [36, 10] else [10]
  let ends := if marking.returned then caret 13 ++ ends else ends
  match marking.blanks with
  | none => (ends, { marking with blanks := some 0, returned := false })
  | some blanks =>
    if marks.squeeze && 0 < blanks then ([], marking)
    else
      let (number, marking) := marking.numbered (marks.number && !marks.numberFull)
      (number ++ ends, { marking with blanks := some (blanks + 1) })

/-- A byte of a line, with what stands before it. -/
def inside (marks : Marks) (marking : Marking) (byte : UInt8) : Bytes × Marking :=
  let (number, marking) :=
    marking.numbered (marking.blanks.isSome && (marks.number || marks.numberFull))
  let before : Bytes := if marking.returned then 13 :: number else number
  if byte = 13 && marks.ends && !marks.hidden then
    (before, { marking with blanks := none, returned := true })
  else
    (before ++ shown marks byte, { marking with blanks := none, returned := false })

/-- Bytes as they are shown. -/
def apply (marks : Marks) (marking : Marking) (bytes : Bytes) : Bytes × Marking :=
  let (marked, marking) := bytes.foldl (fun ((marked, marking) : Bytes × Marking) byte =>
    let (more, marking) :=
      if byte = 10 then marking.newline marks else marking.inside marks byte
    (more.reverse ++ marked, marking)) ([], marking)
  (marked.reverse, marking)

end Marking

/-- Bytes to standard output at once, or the end. -/
def sendOrDie (bytes : Bytes) : Tool Unit := do
  if let .error errno ← send bytes then
    complain ("write error: " ++ errorText errno)
    stop 1

/-- The rest of an open file as it is. -/
def copyPlain (fd : Descriptor) : Tool (Except Errno Unit) := do
  let (result, _) ← foldBlocks fd 131072 () fun _ bytes => do
    sendOrDie bytes
    return ((), true)
  return result

/-- All that is held back goes out, or it is the end. -/
def flushOrDie : Tool Unit := do
  if let .error errno ← flush then
    complain ("write error: " ++ errorText errno)
    stop 1

/-- The rest of an open file with marks. What is ready goes out before the file keeps it
waiting. -/
def copyMarked (marks : Marks) (fd : Descriptor) (marking : Marking) :
    Tool (Except Errno Unit × Marking) :=
  iterate (fun marking => do
    if (← call (.available fd)) = 0 then
      flushOrDie
    match ← readBlock fd 131072 with
    | .error errno => do
      flushOrDie
      return .inr (.error errno, marking)
    | .ok [] => return .inr (.ok (), marking)
    | .ok bytes => do
      let (bytes, marking) := marking.apply marks bytes
      putOr "write error" bytes
      return .inl marking) marking

/-- Whether what is read from a descriptor would be written behind itself. -/
def feedsItself (fd : Descriptor) : Tool Bool := do
  match ← call (.inspectOpen fd), ← call (.inspectOpen .output) with
  | .ok source, .ok sink =>
    return source.file.kind = .regular && source.file.identity = sink.file.identity &&
      source.offset < source.file.size
  | _, _ => return false

def catGrammar : Grammar where
  plain := "AbeEnstTuv"
  names := [("number-nonblank", "b", .nothing), ("number", "n", .nothing),
    ("squeeze-blank", "s", .nothing), ("show-nonprinting", "v", .nothing),
    ("show-ends", "E", .nothing), ("show-tabs", "T", .nothing), ("show-all", "A", .nothing)]

/-- One operand: what is known behind it, and whether all went well. -/
def catOperand (marks : Marks) (marking : Marking) (operand : String) :
    Tool (Marking × Bool) := do
  let complainOf (errno : Errno) : Tool Unit :=
    complain (Text.plainName operand ++ ": " ++ errorText errno)
  match ← openOperand operand with
  | .error errno =>
    complainOf errno
    return (marking, false)
  | .ok fd =>
    let (result, marking) ← do
      if ← feedsItself fd then
        complain (Text.plainName operand ++ ": input file is output file")
        pure (.ok false, marking)
      else if marks.isEmpty then
        pure ((← copyPlain fd).map fun _ => true, marking)
      else
        let (result, marking) ← copyMarked marks fd marking
        pure (result.map fun _ => true, marking)
    closeOperand operand fd
    match result with
    | .ok good => return (marking, good)
    | .error errno =>
      complainOf errno
      return (marking, false)

def cat (args : List String) : Tool Status := do
  let arguments ← parseArguments catGrammar 1 args
  let marks := Marks.ofArguments arguments
  if let .error errno ← call (.inspectOpen .output) then
    die ("standard output: " ++ errorText errno) 1
  let mut marking : Marking := {}
  let mut status : Status := 0
  for operand in arguments.inputs do
    let (next, good) ← catOperand marks marking operand
    marking := next
    unless good do
      status := 1
  if marking.returned then
    sendOrDie [13]
  closeInput arguments.inputs "closing standard input"
  return status

end TinyShell.Machine.Tool
