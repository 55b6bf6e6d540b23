import TinyShell.Machine.Tool.Options

/-!
# wc

Lines, words and bytes of files.
-/

namespace TinyShell.Machine.Tool

open Text (Bytes)

/-- The blanks between words. -/
def isSpace (byte : UInt8) : Bool := (9 ≤ byte && byte ≤ 13) || byte = 32

/-- The counts of a text, as far as it is known. -/
structure Counts where
  lines : Nat := 0
  words : Nat := 0
  bytes : Nat := 0
  /-- The columns of the widest line. -/
  widest : Nat := 0
  /-- The columns of the line so far. -/
  column : Nat := 0
  /-- Whether the text stops inside a word. -/
  inside : Bool := false
  deriving Inhabited

namespace Counts

/-- One more byte. A word begins at a byte that prints, and ends before a blank. -/
def next (counts : Counts) (byte : UInt8) : Counts :=
  let counts := { counts with bytes := counts.bytes + 1 }
  if byte = 10 || byte = 13 || byte = 12 then
    { counts with
      lines := if byte = 10 then counts.lines + 1 else counts.lines
      widest := max counts.widest counts.column
      column := 0
      inside := false }
  else if byte = 9 then
    { counts with column := (counts.column / 8 + 1) * 8, inside := false }
  else if byte = 32 then { counts with column := counts.column + 1, inside := false }
  else if byte = 11 then { counts with inside := false }
  else if Text.isPrintable byte then
    { counts with
      words := if counts.inside then counts.words else counts.words + 1
      column := counts.column + 1
      inside := true }
  else counts

/-- The counts of the whole text. -/
def finished (counts : Counts) : Counts :=
  { counts with widest := max counts.widest counts.column, column := 0, inside := false }

def add (a b : Counts) : Counts where
  lines := a.lines + b.lines
  words := a.words + b.words
  bytes := a.bytes + b.bytes
  widest := max a.widest b.widest

/-- The counts that options ask for; lines, words and bytes without options. -/
def chosen (counts : Counts) (arguments : Arguments) : List Nat :=
  let all := arguments.options.isEmpty
  (if all || arguments.has "l" then [counts.lines] else []) ++
    (if all || arguments.has "w" then [counts.words] else []) ++
    (if arguments.has "m" then [counts.bytes] else []) ++
    (if all || arguments.has "c" then [counts.bytes] else []) ++
    (if arguments.has "L" then [counts.widest] else [])

end Counts

/-- The size of an operand before it is read, if it is a file; `none` if it is there but has no
size. -/
def sizeOf (operand : String) : Tool (Except Errno (Option Nat)) := do
  let status ← if operand = "-" then
      pure ((← call (.inspectOpen .input)).map (·.file))
    else call (.inspect operand false)
  return status.map fun status => if status.kind = .regular then some status.size else none

/-- The width of the columns: room for the sum of the sizes, and for seven digits if a size is not
known; a single count needs none. -/
def countWidth (operands : List String) (columns : Nat) : Tool Nat := do
  if operands.length = 1 && columns = 1 then
    return 1
  let sizes ← operands.mapM sizeOf
  let total := (sizes.filterMap fun
    | .ok size => size
    | .error _ => none).foldl (· + ·) 0
  let unknown := sizes.any fun
    | .ok none => true
    | _ => false
  return max (if unknown then 7 else 1) (toString total).length

/-- A row of counts and a name. -/
def countRow (width : Nat) (counts : List Nat) (name : String) : Bytes :=
  let columns := match counts.map (padded width) with
    | [] => []
    | first :: rest => first ++ rest.flatMap (32 :: ·)
  columns ++ (if name.isEmpty then [] else 32 :: Text.encode name) ++ [10]

/-- The counts of the rest of an open file, and the error that ended it, if there was one. -/
def countRest (fd : Descriptor) : Tool (Except Errno Unit × Counts) := do
  let (result, counts) ← foldBlocks fd 16384 ({} : Counts) fun counts bytes =>
    return (bytes.foldl Counts.next counts, true)
  return (result, counts.finished)

/-! ## wc -/

def wcGrammar : Grammar where
  plain := "clLmw"
  names := [("bytes", "c", .nothing), ("chars", "m", .nothing), ("lines", "l", .nothing),
    ("words", "w", .nothing), ("debug", "debug", .nothing),
    ("files0-from", "files0-from", .value), ("max-line-length", "L", .nothing),
    ("total", "total", .value)]

/-- An option with a value that is known to be right. -/
def settleWc (option value : String) : Tool (String × String) := do
  match option with
  | "total" =>
    return (option, ← choose option value
      [(["auto"], "auto"), (["always"], "always"), (["only"], "only"), (["never"], "never")])
  | _ => return (option, value)

/-- The files whose contents are counted. -/
structure Counted where
  names : List String
  /-- The file that holds the names, if the command line does not. -/
  source : Option String := none
  /-- Whether the names are known before the first file is read. -/
  known : Bool := true
  status : Status := 0

/-- The files that are named on the command line or in a file. -/
def countedFiles (arguments : Arguments) : Tool Counted := do
  match arguments.value? "files0-from" with
  | none => return { names := arguments.inputs }
  | some source =>
    if let some extra := arguments.operands.head? then
      complain ("extra operand " ++ Text.quotedName extra)
      say "file operands cannot be combined with --files0-from\n"
      leaveWithHint 1
    match ← openOperand source with
    | .error errno =>
      die ("cannot open " ++ Text.quotedName source ++ " for reading: " ++ errorText errno) 1
    | .ok fd =>
      let known := match ← call (.inspectOpen fd) with
        | .ok status => status.file.kind = .regular
        | .error _ => false
      match ← readAll fd with
      | .ok bytes =>
        closeOperand source fd
        return { names := (piecesAt 0 bytes).map Text.decode, source, known }
      | .error errno =>
        if known then
          die ("cannot read file names from " ++ Text.quotedName source) 1
        complain (Text.plainName source ++ ": read error: " ++ errorText errno)
        return { names := [], source, known, status := 1 }

/-- What is wrong with the name of a file to be counted, the one of that number. -/
def wrongName? (counted : Counted) (name : String) (number : Nat) : Option String :=
  if name.isEmpty then
    let place := match counted.source with
      | some source => Text.plainName source ++ ":" ++ toString number ++ ": "
      | none => ""
    some (place ++ "invalid zero-length file name")
  else if name = "-" && counted.source = some "-" then
    some "when reading file names from stdin, no file name of '-' allowed"
  else none

/-- The counts of a file, as far as it could be read, with a message if that was not to its end. -/
def countFile (name shown : String) : Tool (Option Counts × Bool) := do
  match ← openOperand name with
  | .error errno =>
    complain (shown ++ ": " ++ errorText errno)
    return (none, false)
  | .ok fd =>
    let (result, counts) ← countRest fd
    if let .error errno := result then
      complain (shown ++ ": " ++ errorText errno)
    closeOperand name fd
    return (some counts, result.toOption.isSome)

def wc (args : List String) : Tool Status := do
  let arguments ← parseArguments wcGrammar 1 args fun _ option value => settleWc option value
  let shownCounts : Arguments := { arguments with
    options := arguments.options.filter fun (option, _) => option.length = 1 }
  let counted ← countedFiles arguments
  let totals := (arguments.value? "total").getD "auto"
  let width ← if totals = "only" || !counted.known then pure 1
    else countWidth counted.names (Counts.chosen {} shownCounts).length
  let putRow (counts : Counts) (name : String) : Tool Unit := do
    emit (countRow width (counts.chosen shownCounts) name)
    let _ ← flush
  let unnamed := counted.source.isNone && arguments.operands.isEmpty
  let label (name : String) : String :=
    if unnamed then ""
    else if name.contains '\n' then Text.plainName name
    else name
  let mut status := counted.status
  let mut total : Counts := {}
  for (name, index) in counted.names.zipIdx do
    match wrongName? counted name (index + 1) with
    | some message =>
      complain message
      status := 1
    | none =>
      let (counts, whole) ← countFile name
        (Text.plainName (if unnamed then "standard input" else name))
      unless whole do
        status := 1
      if let some counts := counts then
        if totals ≠ "only" then
          putRow counts (label name)
        total := total.add counts
  let several : Bool := 1 < counted.names.length
  if totals = "always" || totals = "only" || (totals = "auto" && several) then
    putRow total (if totals = "only" then "" else "total")
  closeInput counted.names "-"
  return status

end TinyShell.Machine.Tool
