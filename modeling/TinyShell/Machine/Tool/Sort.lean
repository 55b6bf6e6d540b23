import TinyShell.Machine.Tool.Options
import TinyShell.Machine.Tool.Sorting

/-!
# sort

Lines in order.
-/

namespace TinyShell.Machine.Tool

open Text (Bytes)

/-! ## Options -/

/-- A word such as `+1` as a key, with a word such as `-2` behind it as the end of the key. What
follows `-y` belongs to it only if it is a number. -/
def shortSortKey : List String → Option ((String × String) × List String)
  | "-y" :: word :: rest =>
    if word.all Char.isDigit then some (("y", word), rest) else some (("y", ""), word :: rest)
  | word :: rest =>
    if isShortKey word then
      match rest with
      | last :: rest' =>
        match last.toList with
        | '-' :: digit :: _ =>
          if digit.isDigit then some (("short-key", word ++ " " ++ last), rest')
          else some (("short-key", word), rest)
        | _ => some (("short-key", word), rest)
      | [] => some (("short-key", word), rest)
    else none
  | [] => none

def sortGrammar : Grammar where
  plain := "bcCdfghimMnrRsuVz"
  valued := "koStTy"
  names := [("ignore-leading-blanks", "b", .nothing),
    ("check", "check", .optional "diagnose-first"),
    ("compress-program", "compress-program", .value), ("debug", "debug", .nothing),
    ("dictionary-order", "d", .nothing), ("ignore-case", "f", .nothing),
    ("files0-from", "files0-from", .value), ("general-numeric-sort", "g", .nothing),
    ("ignore-nonprinting", "i", .nothing), ("key", "k", .value), ("merge", "m", .nothing),
    ("month-sort", "M", .nothing), ("numeric-sort", "n", .nothing),
    ("human-numeric-sort", "h", .nothing), ("version-sort", "V", .nothing),
    ("random-sort", "R", .nothing), ("random-source", "random-source", .value),
    ("sort", "sort", .value), ("output", "o", .value), ("reverse", "r", .nothing),
    ("stable", "s", .nothing), ("batch-size", "batch-size", .value),
    ("buffer-size", "buffer-size", .value), ("field-separator", "t", .value),
    ("temporary-directory", "T", .value), ("unique", "u", .nothing),
    ("zero-terminated", "z", .nothing), ("parallel", "parallel", .value)]
  short := shortSortKey

/-- A key of the options, if there is one. -/
def keyOf? (option value : String) : Option (Except String Key) :=
  match option with
  | "k" => some (Key.parse value)
  | "short-key" =>
    let first := (value.toList.takeWhile (· ≠ ' '))
    some (Key.parseShort (String.ofList first) (value.drop (first.length + 1)).toString)
  | _ => none

/-- The byte between fields that is asked for. -/
def separatorOf (value : String) : Except String UInt8 :=
  match Text.encode value with
  | [] => .error "empty tab"
  | [byte] => .ok byte
  | [92, 48] => .ok 0
  | _ => .error ("multi-character tab " ++ Text.quotedWord value)

def incompatible (letters : String) : String := "options '-" ++ letters ++ "' are incompatible"

/-- What is wrong with the room that lines may take: kilobytes, unless a letter says something
else. -/
def roomError? (value : String) : Option SizeError :=
  let format : SizeFormat := { letters := "EgGkKmMPQRtTYZ" }
  let plain := (value.dropEnd 1).toString
  let isPlain : Bool := (plain.toList.getLast?.any Char.isDigit)
  match format.parse value with
  | .ok size =>
    let digit := value.toList.getLast?.any Char.isDigit
    if digit && maxCount < size * 1024 then some .large else none
  | .error (.wrongEnd false) =>
    if isPlain && (value.endsWith "b" || value.endsWith "%") then none else some (.wrongEnd false)
  | .error error => some error

/-- What some options that are given more than once must not be given differently for. -/
def singular : List (String × String) :=
  [("o", "output files"), ("compress-program", "compress programs"),
    ("random-source", "random sources")]

/-- An option by its letter, with a value that is known to be right and to go with those before. -/
def settleSort (earlier : Arguments) (option value : String) : Tool (String × String) := do
  if let some (.error message) := keyOf? option value then
    die message 2
  if let some what := singular.lookup option then
    if (earlier.value? option).any (· ≠ value) then
      die ("multiple " ++ what ++ " specified") 2
  let settled ← match option with
    | "sort" => pure (← choose option value [(["general-numeric"], "g"), (["human-numeric"], "h"),
        (["month"], "M"), (["numeric"], "n"), (["random"], "R"), (["version"], "V")], "")
    | "check" =>
      pure (← choose option value [(["quiet", "silent"], "C"), (["diagnose-first"], "c")], "")
    | _ => pure (option, value)
  match settled with
  | ("c", _) => if earlier.has "C" then die (incompatible "cC") 2
  | ("C", _) => if earlier.has "c" then die (incompatible "cC") 2
  | ("t", value) =>
    match separatorOf value with
    | .error message => die message 2
    | .ok mark =>
      if ((earlier.value? "t").map separatorOf).any fun
          | .ok other => other ≠ mark
          | .error _ => false then
        die "incompatible tabs" 2
  | ("S", value) | ("buffer-size", value) =>
    if let some error := roomError? value then
      die (error.optionMessage (if option = "S" then "-S" else "--buffer-size") value) 2
  | ("parallel", value) =>
    match plainNumber.parse value with
    | .ok 0 => die "number in parallel must be nonzero" 2
    | .ok _ | .error .large => pure ()
    | .error error => die (error.optionMessage "--parallel" value) 2
  | ("batch-size", value) =>
    match plainNumber.parse value with
    | .ok count =>
      if count < 2 then
        complain ("invalid --batch-size argument " ++ Text.quotedWord value)
        die "minimum --batch-size argument is '2'" 2
    | .error error => die (error.optionMessage "--batch-size" value) 2
  | _ => pure ()
  return settled

/-- How options ask for lines to be ordered. -/
def Sorting.of (arguments : Arguments) : Except String Sorting := do
  let general := arguments.options.foldl (fun (key : Key) (option, _) =>
    match option.toList with
    | [letter] => (key.option? true true letter).getD key
    | _ => key) {}
  let given ← arguments.options.filterMapM fun (option, value) =>
    match keyOf? option value with
    | some key => key.map some
    | none => pure none
  let inherits (key : Key) : Key :=
    if key.isPlain then
      { general with
        startWord := key.startWord
        startByte := key.startByte
        endWord := key.endWord
        endByte := key.endByte }
    else key
  let keys := given.map inherits
  let keys := if keys.isEmpty && !{ general with reverse := false }.isPlain then [general] else keys
  if let some letters := keys.findSome? Key.conflict? then
    throw (incompatible letters)
  return {
    keys
    separator := (arguments.value? "t").bind fun value => (separatorOf value).toOption
    reverse := general.reverse
    stable := arguments.has "s"
    unique := arguments.has "u" }

/-! ## Input and output -/

/-- The bytes of an operand up to its end, or the end of the tool. -/
def sortInput (operand : String) : Tool Bytes := do
  match ← openOperand operand with
  | .error errno =>
    die ("open failed: " ++ Text.plainName operand ++ ": " ++ errorText errno) 2
  | .ok fd =>
    match ← readAll fd with
    | .error errno =>
      die ("read failed: " ++ Text.plainName operand ++ ": " ++ errorText errno) 2
    | .ok bytes =>
      -- Where a standard stream was closed, the operand took its place and keeps it.
      unless fd = .input || fd = .output do
        closeOperand operand fd
      return bytes

/-- Lines to a file that is emptied for them. -/
def sortToFile (path : String) (bytes : Bytes) : Tool Status := do
  let failed (what : String) (errno : Errno) : Tool Status :=
    die (what ++ " failed: " ++ Text.plainName path ++ ": " ++ errorText errno) 2
  match ← request (.openFile path { access := .writeOnly, create := true, truncate := true }) with
  | .error errno => failed "open" errno
  | .ok fd =>
    match ← writeAll fd bytes with
    | .ok () => return 0
    | .error errno => failed (if blockSize < bytes.length then "write" else "close") errno

/-- Lines to standard output. -/
def sortToOutput (bytes : Bytes) : Tool Status := do
  let failed (what : String) (errno : Errno) : Tool Status :=
    die (what ++ " failed: 'standard output': " ++ errorText errno) 2
  match ← put bytes with
  | .error errno => failed "write" errno
  | .ok () =>
    match ← flush with
    | .error errno => failed "fflush" errno
    | .ok () => return 0

/-- The operands, which a file may hold instead of the command line. -/
def sortOperands (arguments : Arguments) : Tool (List String) := do
  match arguments.value? "files0-from" with
  | none => return arguments.inputs
  | some source =>
    if let some extra := arguments.operands.head? then
      complain ("extra operand " ++ Text.quotedName extra)
      say "file operands cannot be combined with --files0-from\n"
      leaveWithHint 2
    match ← openOperand source with
    | .error errno => die ("open failed: " ++ Text.plainName source ++ ": " ++ errorText errno) 2
    | .ok fd =>
      match ← readAll fd with
      | .error _ => die ("cannot read file names from " ++ Text.quotedName source) 2
      | .ok bytes =>
        closeOperand source fd
        let names := (piecesAt 0 bytes).map Text.decode
        if names.isEmpty then
          die ("no input from " ++ Text.quotedName source) 2
        for (name, index) in names.zipIdx do
          if name = "-" then
            die "when reading file names from stdin, no file name of '-' allowed" 2
          else if name.isEmpty then
            die (Text.plainName source ++ ":" ++ toString (index + 1) ++
              ": invalid zero-length file name") 2
        return names

/-! ## sort -/

/-- A text is in order, or it is said where it is not. -/
def checkOrder (sorting : Sorting) (mark : UInt8) (quiet : Bool) (operand : String) :
    Tool Status := do
  match sorting.disorder? (piecesAt mark (← sortInput operand)) with
  | none => return 0
  | some (number, line) =>
    unless quiet do
      let _ ← writeAll 2 (Text.encode ((← read) ++ ": " ++ operand ++ ":" ++
        toString number ++ ": disorder: ") ++ line ++ [10])
    return 1

/-- The lines of all operands in order, to standard output or to a file. -/
def sortOperandsTo (sorting : Sorting) (mark : UInt8) (merges : Bool) (path : Option String)
    (operands : List String) : Tool Status := do
  for operand in operands do
    if operand ≠ "-" then
      if let .error errno ← call (.inspect operand false) then
        die ("cannot read: " ++ Text.plainName operand ++ ": " ++ errorText errno) 2
  if let some path := path then
    match ← request (.openFile path { access := .writeOnly, create := true }) with
    | .error errno => die ("open failed: " ++ Text.plainName path ++ ": " ++ errorText errno) 2
    | .ok fd => closeOperand path fd
  if operands.contains "-" && !merges then
    if let .error errno ← call (.inspectOpen .input) then
      die ("stat failed: -: " ++ errorText errno) 2
  let texts := (← operands.mapM sortInput).map (piecesAt mark)
  let lines := if merges then sorting.merge texts else sorting.apply texts.flatten
  let bytes := lines.flatMap (· ++ [mark])
  match path with
  | some path => sortToFile path bytes
  | none => sortToOutput bytes

def sort (args : List String) : Tool Status := do
  let arguments ← parseArguments sortGrammar 2 args settleSort
  let operands ← sortOperands arguments
  let sorting ← match Sorting.of arguments with
    | .ok sorting => pure sorting
    | .error message => die message 2
  let mark : UInt8 := if arguments.has "z" then 0 else 10
  match arguments.lastOf? ["c", "C"] with
  | some (letter, _) =>
    if let some extra := operands[1]? then
      die ("extra operand " ++ Text.quotedName extra ++ " not allowed with -" ++ letter) 2
    if arguments.has "o" then
      die (incompatible (letter ++ "o")) 2
    checkOrder sorting mark (letter = "C") (operands.headD "-")
  | none => sortOperandsTo sorting mark (arguments.has "m") (arguments.value? "o") operands

end TinyShell.Machine.Tool
