import TinyShell.Machine.Tool.Part

/-!
# tail

The parts of files at the end.
-/

namespace TinyShell.Machine.Tool

open Text (Bytes)

/-- The rest of an open file. An error ends the tool. -/
def copyRest (operand : String) (fd : Descriptor) : Tool Unit := do
  let (result, _) ← foldBlocks fd readSize () fun _ bytes => do
    passOn bytes
    return ((), true)
  if let .error errno := result then
    complainOfReading operand errno
    leave 1 1

/-- All of an open file from some line or byte on. -/
def copyFrom (amount : Amount) (operand : String) (fd : Descriptor) : Tool Bool := do
  let skipped := amount.count - 1
  let (result, _) ← foldBlocks fd readSize skipped fun left bytes => do
    if left = 0 then
      passOn bytes
      return (0, true)
    let passed := if amount.lines then lengthOfLines amount.mark left bytes
      else min left bytes.length
    let left := left - (if amount.lines then (bytes.take passed).count amount.mark else passed)
    passOn (bytes.drop passed)
    return (left, true)
  match result with
  | .ok () => return true
  | .error errno =>
    complainOfReading operand errno
    -- What goes by bytes is only copied from there on.
    unless amount.lines do
      leave 1 1
    return false

/-- The part that `tail` shows of an open file. -/
def tailPart (amount : Amount) (operand : String) (fd : Descriptor) : Tool Bool := do
  if let .error errno ← call (.inspectOpen fd) then
    complain ("cannot fstat " ++ Text.quotedName (shownName operand) ++ ": " ++ errorText errno)
    return false
  else if amount.inverted && amount.count ≤ 1 then
    copyRest operand fd
    return true
  else if amount.inverted then copyFrom amount operand fd
  else
    match ← readAll fd with
    | .error errno =>
      complainOfReading operand errno
      unless amount.lines do
        leave 1 1
      return false
    | .ok bytes =>
      passOn (bytes.drop (amount.front bytes))
      return true

/-! ## Options -/

def tailGrammar : Grammar where
  plain := "fFqvz0123456789"
  valued := "cns"
  names := [("bytes", "c", .value), ("follow", "follow", .optional "descriptor"),
    ("lines", "n", .value), ("max-unchanged-stats", "max-unchanged-stats", .value),
    ("-disable-inotify", "disable-inotify", .nothing), ("pid", "pid", .value),
    ("-presume-input-pipe", "presume-input-pipe", .nothing), ("quiet", "q", .nothing),
    ("retry", "retry", .nothing), ("silent", "q", .nothing), ("sleep-interval", "s", .value),
    ("verbose", "v", .nothing), ("zero-terminated", "z", .nothing)]

/-- The largest number of a process. -/
def maxPid : Nat := 2147483647

/-- An option with a value that is known to be right. -/
def settleTail (option value : String) : Tool (String × String) := do
  match option with
  | "n" | "c" =>
    if let .error message := Amount.parse option value '+' then
      die message 1
    return (option, value)
  | "f" => return ("follow", "descriptor")
  | "F" => return ("follow", "again")
  | "follow" =>
    return (option, ← choose option value [(["descriptor"], "descriptor"), (["name"], "name")])
  | "max-unchanged-stats" =>
    if let .error error := plainNumber.parse value then
      die (error.message "maximum number of unchanged stats between opens" value) 1
    return (option, value)
  | "pid" =>
    match plainNumber.parse value with
    | .ok pid =>
      if maxPid < pid then
        die (SizeError.large.message "PID" value) 1
      return (option, toString pid)
    | .error error => die (error.message "PID" value) 1
  | "s" =>
    let wrong : Bool := match Number.read? value.toList with
      | some (number, []) => number.isNegative || number = .notANumber
      | _ => true
    if wrong then
      die ("invalid number of seconds: " ++ Text.quotedWord value) 1
    return (option, value)
  | _ =>
    if option.all Char.isDigit then
      die ("option used in invalid context -- " ++ option) 1
    return (option, value)

/-- What a first word such as `-5` or `+5` stands for, unless there is more than one operand: a
number, a letter for what is counted, and a letter to wait for more. In words what is wrong with the
number otherwise. -/
def shortTail (args : List String) : Except String (List String) :=
  match args with
  | word :: rest =>
    let alone := match rest with
      | [] => true
      | "--" :: rest => rest.length ≤ 1
      | [operand] => operand.toList.head? ≠ some '-' || operand = "-"
      | _ => false
    match word.toList with
    | sign :: more =>
      let count := more.takeWhile Char.isDigit
      let letters := more.drop count.length
      let (unit, letters) := match letters with
        | 'b' :: letters => ('b', letters)
        | 'c' :: letters => ('c', letters)
        | 'l' :: letters => ('l', letters)
        | letters => ('l', letters)
      let number := (if count.isEmpty then 10 else digitsValue count) *
        (if unit = 'b' then 512 else 1)
      let known : Bool := sign = '+' || (sign = '-' && more ≠ [] && more ≠ ['c'])
      if !alone || !known || !(letters = [] || letters = ['f']) then .ok args
      else if maxCount < number then
        .error ("invalid number: " ++ Text.quotedWord word ++ ": Numerical result out of range")
      else
        let value := (if sign = '+' then "+" else "") ++ toString number
        .ok ((if unit = 'l' then "-n" else "-c") :: value ::
          (if letters.isEmpty then rest else "-f" :: rest))
    | [] => .ok args
  | [] => .ok args

/-! ## Following -/

/-- How files are followed. -/
structure Following where
  byName : Bool
  /-- Whether files that are not there are waited for. -/
  again : Bool
  deriving Inhabited

/-- How files are to be followed, if they are. -/
def Following.ofArguments? (arguments : Arguments) : Option Following :=
  (arguments.value? "follow").map fun how =>
    { byName := how ≠ "descriptor"
      again := arguments.has "retry" || arguments.options.contains ("follow", "again") }

/-- Options that mean nothing without others are named. -/
def warnOfOptions (arguments : Arguments) (following : Option Following) : Tool Unit := do
  match following with
  | none =>
    if arguments.has "retry" then
      complain "warning: --retry ignored; --retry is useful only when following"
    if (arguments.value? "pid").any (· ≠ "0") then
      complain "warning: PID ignored; --pid=PID is useful only when following"
  | some following =>
    if following.again && !following.byName then
      complain "warning: --retry only effective for the initial open"

/-- Whether standard input is a channel. -/
def inputIsChannel : Tool Bool := do
  match ← call (.inspectOpen .input) with
  | .ok status => return status.file.kind = .channel
  | .error _ => return false

/-- The part that `tail` shows of an open file that is to be followed. Not all can be. -/
def followedPart (amount : Amount) (following : Following) (operand : String) (fd : Descriptor) :
    Tool Bool := do
  let good ← tailPart amount operand fd
  match ← call (.inspectOpen fd) with
  | .ok status =>
    if status.file.kind ≠ .directory then return good
    complain (Text.plainName (shownName operand) ++ ": cannot follow end of this type of file" ++
      (if following.again then "" else "; giving up on this name"))
    return false
  | .error errno =>
    complainOfReading operand errno
    return false

/-- Whether there is a file to follow. Nothing more comes from a channel, which needs no other file
beside it. -/
def hasFollowed (following : Following) (results : List (String × Bool)) : Tool Bool := do
  let channel ← inputIsChannel
  let others := results.filter fun (operand, good) => !(operand = "-" && good && channel)
  return others.isEmpty || others.any (·.2) || following.again

/-! ## tail -/

def tail (args : List String) : Tool Status := do
  let words ← match shortTail args with
    | .ok words => pure words
    | .error message => die message 1
  let arguments ← parseArguments tailGrammar 1 words fun _ option value => settleTail option value
  let following := Following.ofArguments? arguments
  warnOfOptions arguments following
  if following.any (·.byName) && arguments.inputs.contains "-" then
    die "cannot follow '-' by name" 1
  -- A start that was asked for once stays one.
  let inverted := arguments.options.any fun (option, value) =>
    (option = "n" || option = "c") && value.startsWith "+"
  let amount := { Amount.ofArguments arguments '+' with inverted }
  if amount.count = 0 && !amount.inverted && following.isNone then
    return 0
  let results ← match following with
    | none => parts arguments (tailPart amount)
    | some following => parts arguments (followedPart amount following)
  if let some following := following then
    unless ← hasFollowed following results do
      complain "no files remaining"
  closeInput arguments.inputs "-"
  return if results.all (·.2) then 0 else 1

end TinyShell.Machine.Tool
