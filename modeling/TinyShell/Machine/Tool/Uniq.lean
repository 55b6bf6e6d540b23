import TinyShell.Machine.Tool.Key
import TinyShell.Machine.Tool.Options

/-!
# uniq

Neighbouring lines that are equal, made into one, counted, or told apart.
-/

namespace TinyShell.Machine.Tool

open Text (Bytes)

/-- Where an empty line stands between groups of lines. -/
inductive Grouping where
  | none
  | before
  | after
  | between
  | both
  deriving DecidableEq, Repr, Inhabited

/-- What is written of lines that are equal. -/
structure Selection where
  counts : Bool := false
  /-- Whether a line that is alone is written. -/
  single : Bool := true
  /-- Whether one of several is written, and whether the others are. -/
  first : Bool := true
  others : Bool := false
  /-- Whether all lines are written, in groups. -/
  whole : Bool := false
  grouping : Grouping := .none
  fields : Nat := 0
  skipped : Nat := 0
  width : Option Nat := Option.none
  folds : Bool := false
  mark : UInt8 := 10
  deriving Inhabited

namespace Selection

/-- What is left behind so many fields, each with the blanks before it. -/
def dropFields : (count : Nat) → Bytes → Bytes
  | 0, bytes => bytes
  | _, [] => []
  | count + 1, bytes => dropFields count ((bytes.dropWhile isBlank).dropWhile (!isBlank ·))

/-- The part of a line that is compared. -/
def key (selection : Selection) (line : Bytes) : Bytes :=
  let bytes := (dropFields selection.fields line).drop selection.skipped
  let bytes := match selection.width with
    | some width => bytes.take width
    | .none => bytes
  if selection.folds then bytes.map foldCase else bytes

end Selection

/-- Lines that are equal so far. -/
structure LineRun where
  key : Bytes
  /-- The lines, the last one first. -/
  lines : List Bytes
  deriving Inhabited

/-- What is known between two lines. -/
structure Progress where
  run : Option LineRun := .none
  /-- The bytes of a line that has not ended. -/
  tail : Bytes := []
  /-- Whether a group has been written. -/
  grouped : Bool := false
  deriving Inhabited

namespace Selection

/-- What is written of a run, and whether it is a group. -/
def ofRun (selection : Selection) (grouped : Bool) (run : LineRun) : Bytes × Bool :=
  let count := run.lines.length
  let line (bytes : Bytes) : Bytes := bytes ++ [selection.mark]
  let counted (bytes : Bytes) : Bytes :=
    (if selection.counts then padded 7 count ++ [32] else []) ++ line bytes
  let opens := selection.grouping = .before || selection.grouping = .both ||
    (grouped && (selection.grouping = .between || selection.grouping = .after))
  let separator := if opens then [selection.mark] else []
  if selection.whole then (separator ++ run.lines.reverse.flatMap line, true)
  else
    let later := selection.others && 1 < count
    let others := if later then (run.lines.drop 1).reverse.flatMap line else []
    let shown := if count = 1 then selection.single else selection.first
    let last := if selection.others then run.lines.head? else run.lines.getLast?
    let own := if shown then counted (last.getD []) else []
    ((if later then separator else []) ++ others ++ own, grouped || 1 < count)

/-- One more line. -/
def next (selection : Selection) (progress : Progress) (line : Bytes) : Bytes × Progress :=
  let key := selection.key line
  match progress.run with
  | .none => ([], { progress with run := some ⟨key, [line]⟩ })
  | some run =>
    if run.key = key then
      ([], { progress with run := some { run with lines := line :: run.lines } })
    else
      let (bytes, grouped) := selection.ofRun progress.grouped run
      (bytes, { progress with run := some ⟨key, [line]⟩, grouped })

/-- One more block. -/
def feed (selection : Selection) (progress : Progress) (block : Bytes) : Bytes × Progress :=
  let (lines, tail) := splitAt selection.mark (progress.tail ++ block)
  let (pieces, progress) := lines.foldl (fun ((pieces, progress) : List Bytes × Progress) line =>
    let (bytes, progress) := selection.next progress line
    (bytes :: pieces, progress)) ([], progress)
  (pieces.reverse.flatten, { progress with tail })

/-- What is written at the end. -/
def finish (selection : Selection) (progress : Progress) : Bytes :=
  let (bytes, progress) := if progress.tail.isEmpty then ([], progress)
    else selection.next progress progress.tail
  match progress.run with
  | .none => bytes
  | some run =>
    let (last, grouped) := selection.ofRun progress.grouped run
    let closes := grouped && (selection.grouping = .after || selection.grouping = .both)
    bytes ++ last ++ (if closes then [selection.mark] else [])

end Selection

/-! ## uniq -/

/-- An operand as an option of its own, so that it is looked at in its turn. A number behind a plus
sign is one of bytes to skip. -/
def uniqOperand : List String → Option ((String × String) × List String)
  | word :: rest =>
    let isCount : Bool := word.startsWith "+" &&
      (plainNumber.parse word).toOption.any (· ≤ maxFileSize)
    if isCount then some (("s", word), rest)
    else if word.startsWith "-" && word ≠ "-" then none
    else some (("operand", word), rest)
  | [] => none

def uniqGrammar : Grammar where
  plain := "cdDuiz0123456789"
  valued := "fsw"
  names := [("count", "c", .nothing), ("repeated", "d", .nothing),
    ("all-repeated", "all-repeated", .optional "none"), ("group", "group", .optional "separate"),
    ("ignore-case", "i", .nothing), ("unique", "u", .nothing), ("skip-fields", "f", .value),
    ("skip-chars", "s", .value), ("check-chars", "w", .value),
    ("zero-terminated", "z", .nothing)]
  short := uniqOperand

/-- A number of fields or bytes, or the end. -/
def skipCount (value kind : String) : Tool Nat := do
  match plainNumber.parse value with
  | .ok count => return count
  | .error .large => return maxCount
  | .error _ => die (value ++ ": invalid number of " ++ kind) 1

/-- What one option asks for, after others. -/
def Selection.withOption (selection : Selection) (option value : String) : Tool Selection := do
  match option with
  | "c" => return { selection with counts := true }
  | "d" => return { selection with single := false }
  | "D" => return { selection with single := false, others := true, grouping := .none }
  | "all-repeated" =>
    let grouping ← choose option value
      [(["none"], Grouping.none), (["prepend"], .before), (["separate"], .between)]
    return { selection with single := false, others := true, grouping }
  | "group" =>
    let grouping ← choose option value [(["prepend"], Grouping.before), (["append"], .after),
      (["separate"], .between), (["both"], .both)]
    return { selection with whole := true, grouping }
  | "u" => return { selection with first := false }
  | "i" => return { selection with folds := true }
  | "z" => return { selection with mark := 0 }
  | "f" => return { selection with fields := ← skipCount value "fields to skip" }
  | "s" => return { selection with skipped := ← skipCount value "bytes to skip" }
  | "w" => return { selection with width := some (← skipCount value "bytes to compare") }
  | _ => return selection

/-- The fields to skip where they are given as digits behind all other options for them. -/
def shortFields? (arguments : Arguments) : Option Nat :=
  let given := (arguments.options.map (·.1)).filter fun option =>
    option = "f" || option.all Char.isDigit
  let digits := (given.reverse.takeWhile (· ≠ "f")).reverse
  if digits.isEmpty then none else some (digitsValue (digits.flatMap String.toList))

/-- An option with a value that is known to be right, or an operand if there are not too many. -/
def settleUniq (earlier : Arguments) (option value : String) : Tool (String × String) := do
  let _ ← Selection.withOption {} option value
  if option = "operand" && 2 ≤ earlier.options.countP (·.1 = "operand") then
    refuse ("extra operand " ++ Text.quotedWord value) 1
  return (option, value)

def uniq (args : List String) : Tool Status := do
  let arguments ← parseArguments uniqGrammar 1 args settleUniq
  let operands := (arguments.options.filter (·.1 = "operand")).map (·.2) ++ arguments.operands
  if let some extra := operands[2]? then
    refuse ("extra operand " ++ Text.quotedWord extra) 1
  let selection ← arguments.options.foldlM (fun selection (option, value) =>
    selection.withOption option value) ({} : Selection)
  let selection := { selection with
    fields := (shortFields? arguments).getD selection.fields }
  if selection.whole && ["c", "d", "D", "u", "all-repeated"].any arguments.has then
    refuse "--group is mutually exclusive with -c/-d/-D/-u" 1
  if selection.counts && selection.others then
    refuse "printing all duplicated lines and repeat counts is meaningless" 1
  let input := operands.headD "-"
  match ← openOperand input with
  | .error errno => die (Text.plainName input ++ ": " ++ errorText errno) 1
  | .ok fd =>
    if let some path := operands[1]? then
      if path ≠ "-" then
        match ← request (.openFile path
            { access := .writeOnly, create := true, truncate := true }) with
        | .error errno => die (Text.plainName path ++ ": " ++ errorText errno) 1
        | .ok out =>
          let _ ← request (.duplicate out .output)
          let _ ← request (.close out)
    let (result, progress) ← foldBlocks fd blockSize ({} : Progress) fun progress block => do
      let (bytes, progress) := selection.feed progress block
      emit bytes
      return (progress, true)
    emit (selection.finish progress)
    if let .error errno := result then
      die ("error reading " ++ Text.quotedName input ++ ": " ++ errorText errno) 1
    return 0

end TinyShell.Machine.Tool
