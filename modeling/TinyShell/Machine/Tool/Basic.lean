import TinyShell.Machine.Call
import TinyShell.Text.FileName

/-!
# Tools

What the machine's small programs are made of: messages, output that is held back until there is
enough of it, and input from files named on the command line.

The tools stand in for programs outside the shell, and nothing is proved about them.
-/

namespace TinyShell.Machine

open Text (Bytes)

/-- The text of an error, as programs write it. -/
def errorText : Errno → String
  | .eagain => "Resource temporarily unavailable"
  | .ebadf => "Bad file descriptor"
  | .eio => "Input/output error"
  | .eloop => "Too many levels of symbolic links"
  | .enfile => "Too many open files in system"
  | .enomem => "Cannot allocate memory"
  | errno => errno.describe

/-- What a tool has written and still holds back. -/
structure Output where
  /-- The pieces, the last one first. -/
  pieces : List Bytes := []
  size : Nat := 0
  /-- Whether some of it could not be written. -/
  lost : Bool := false
  deriving Inhabited

/-- A step of a tool, which knows the name that it was called by and holds back its output. -/
abbrev Tool := ReaderT String (StateT Output Program)

namespace Tool

/-- A call of the tool. -/
def call (made : Call) : Tool made.Reply := fun _ output => do return (← Program.call made, output)

/-- A call that the shell makes too. -/
def request (made : Request) : Tool made.Reply :=
  fun _ output => do return (← Program.request made, output)

/-- `body` until it answers with a result. -/
def iterate {σ β : Type} (body : σ → Tool (σ ⊕ β)) (start : σ) : Tool β := fun name output =>
  Program.iterate (fun (start, output) => do
    match ← body start name output with
    | (.inl next, output) => return .inl (next, output)
    | (.inr value, output) => return .inr (value, output)) (start, output)

/-! ## Output -/

/-- Bytes that are held back at most; beyond them, whole blocks of so many go out. -/
def blockSize : Nat := 4096

def writeAll (fd : Descriptor) (bytes : Bytes) : Tool (Except Errno Unit) :=
  fun _ output => do return (← Program.writeAll fd bytes, output)

/-- Bytes to standard output at once. What cannot be written is lost. -/
def send (bytes : Bytes) : Tool (Except Errno Unit) := do
  let result ← if bytes.isEmpty then pure (.ok ()) else writeAll .output bytes
  if let .error _ := result then
    modify fun _ => { lost := true }
  return result

/-- All that is held back goes out. -/
def flush : Tool (Except Errno Unit) := do
  let output ← get
  set { output with pieces := [], size := 0 }
  send output.pieces.reverse.flatten

/-- Bytes to standard output, where the end of them may be held back. -/
def put (bytes : Bytes) : Tool (Except Errno Unit) := do
  let output ← get
  let pieces := bytes :: output.pieces
  let size := output.size + bytes.length
  if size ≤ blockSize then
    set { output with pieces, size }
    return .ok ()
  let all := pieces.reverse.flatten
  let whole := size / blockSize * blockSize
  set { output with pieces := [all.drop whole], size := size - whole }
  send (all.take whole)

/-- Bytes to standard output by a tool that does not look whether they arrive. -/
def emit (bytes : Bytes) : Tool Unit := do
  let _ ← put bytes

/-- Text to standard error. -/
def say (text : String) : Tool Unit := do
  let _ ← writeAll 2 (Text.encode text)

/-- A message of the tool in bytes, behind all of its output so far. -/
def report (message : Bytes) : Tool Unit := do
  let _ ← flush
  let _ ← writeAll 2 (Text.encode ((← read) ++ ": ") ++ message ++ [10])

/-- A message of the tool. -/
def complain (message : String) : Tool Unit := report (Text.encode message)

/-! ## Ends -/

/-- The tool is over, with no more output. -/
def stop {α : Type} (status : Status) : Tool α := fun _ _ => .exit status

/-- The tool is over. It fails if output was lost, and gives the reason if the last was, or if
there is no output at all. -/
def leave {α : Type} (status failure : Status) : Tool α := do
  match ← flush with
  | .error errno =>
    complain ("write error: " ++ errorText errno)
    stop failure
  | .ok () =>
    if (← get).lost then
      match ← call (.inspectOpen .output) with
      | .ok _ => complain "write error"
      | .error errno => complain ("write error: " ++ errorText errno)
      stop failure
    else
      stop status

/-- The tool is over for the reason in a message. -/
def die {α : Type} (message : String) (failure : Status) : Tool α := do
  complain message
  leave failure failure

/-- Bytes to standard output by a tool that ends with a message if they do not arrive. -/
def putOr (message : String) (bytes : Bytes) : Tool Unit := do
  if let .error errno ← put bytes then
    complain (message ++ ": " ++ errorText errno)
    stop 1

/-- A tool as a program: the first word is the name it was called by. -/
def toProgram (body : List String → Tool Status) (failure : Status) (argv : List String) :
    Program Status := do
  let leaving (words : List String) : Tool Status := do leave (← body words) failure
  return (← leaving (argv.drop 1) (argv.headD "") {}).1

/-- The end of a tool that does not take its command line, for a reason that has been given. -/
def leaveWithHint {α : Type} (failure : Status) : Tool α := do
  say ("Try '" ++ (← read) ++ " --help' for more information.\n")
  leave failure failure

/-- A command line that the tool does not take. -/
def refuse {α : Type} (message : String) (failure : Status) : Tool α := do
  complain message
  leaveWithHint failure

/-! ## Input -/

/-- An operand as an open file; a dash is standard input. -/
def openOperand (operand : String) : Tool (Except Errno Descriptor) :=
  if operand = "-" then pure (.ok .input)
  else request (.openFile operand { access := .readOnly })

/-- The end of the work on an operand; standard input stays open. -/
def closeOperand (operand : String) (fd : Descriptor) : Tool Unit := do
  unless operand = "-" do
    let _ ← request (.close fd)

/-- The end of the work on standard input, if it is an operand. -/
def closeInput (operands : List String) (name : String) : Tool Unit := do
  if operands.contains "-" then
    if let .error errno ← request (.close .input) then
      die (name ++ ": " ++ errorText errno) 1

/-- At most `count` bytes. -/
def readBlock (fd : Descriptor) (count : Nat) : Tool (Except Errno Bytes) :=
  request (.read fd count)

/-- All bytes up to the end. -/
def readAll (fd : Descriptor) : Tool (Except Errno Bytes) :=
  fun _ output => do return (← Program.readAll fd, output)

/-- `next` on block after block, up to the end or an error, or until it has had enough. -/
def foldBlocks {σ : Type} (fd : Descriptor) (count : Nat) (start : σ)
    (next : σ → Bytes → Tool (σ × Bool)) : Tool (Except Errno Unit × σ) :=
  iterate (fun state => do
    match ← readBlock fd count with
    | .error errno => return .inr (.error errno, state)
    | .ok [] => return .inr (.ok (), state)
    | .ok bytes =>
      match ← next state bytes with
      | (state, true) => return .inl state
      | (state, false) => return .inr (.ok (), state)) start

/-! ## Lines -/

/-- The pieces that each end in `mark`, without it, and the bytes after the last of them. -/
def splitAt (mark : UInt8) (bytes : Bytes) : List Bytes × Bytes :=
  let (lines, tail) := bytes.foldl (fun ((lines, line) : List Bytes × Bytes) byte =>
    if byte = mark then (line.reverse :: lines, []) else (lines, byte :: line)) ([], [])
  (lines.reverse, tail.reverse)

/-- The pieces of a text; an unfinished one counts. -/
def piecesAt (mark : UInt8) (bytes : Bytes) : List Bytes :=
  let (lines, tail) := splitAt mark bytes
  if tail.isEmpty then lines else lines ++ [tail]

/-- A number in a column. -/
def padded (width : Nat) (n : Nat) : Bytes :=
  let text := toString n
  List.replicate (width - text.length) 32 ++ Text.encode text

/-- The number that digits write. -/
def digitsValue (digits : List Char) : Nat :=
  digits.foldl (fun n c => n * 10 + (c.toNat - '0'.toNat)) 0

end Tool

end TinyShell.Machine
