import TinyShell.Action.Basic
import TinyShell.Machine.Signal
import TinyShell.Machine.Files

/-!
# Calls

The calls that the programs of a machine make: those of the shell, and those that only other
programs need. A program is a behavior that makes them.
-/

namespace TinyShell.Machine

open Text (Bytes)

/-- What kind of thing a file is. -/
inductive FileKind where
  | directory
  | regular
  | character
  | channel
  | link
  deriving DecidableEq, Repr, Inhabited

/-- What is known of a file without reading it. -/
structure FileStatus where
  kind : FileKind
  size : Nat
  executable : Bool
  /-- Two files of the same identity are the same. -/
  identity : List String
  /-- When it was changed last. -/
  time : Int := 0
  deriving DecidableEq, Repr, Inhabited

/-- What is known of an open file. -/
structure OpenStatus where
  file : FileStatus
  offset : Nat
  append : Bool
  deriving DecidableEq, Repr, Inhabited

/-- What a process does about a signal. -/
inductive Disposition where
  | normal
  | ignored
  | caught
  deriving DecidableEq, Repr, Inhabited

/-- How long a process waits for its children. -/
inductive Patience where
  | none
  /-- Until a signal comes that it has arranged for. -/
  | untilSignal
  | full
  deriving DecidableEq, Repr, Inhabited

/-- A call of a program. -/
inductive Call where
  /-- A call that the shell makes too. -/
  | request (request : Request)
  | sleep (microseconds : Nat)
  /-- `keep` asks about a link itself. -/
  | inspect (path : String) (keep : Bool)
  | inspectOpen (fd : Descriptor)
  /-- The names in a directory. -/
  | list (path : String)
  | seek (fd : Descriptor) (offset : Nat)
  /-- The bytes that could be read now, from an open file that is not at its end. -/
  | available (fd : Descriptor)
  /-- A copy of a descriptor, under a free number from `lowest` on, that no other program gets. -/
  | putAside (fd lowest : Descriptor)
  /-- Which child has ended, and how; the first one of several. Nothing if none has, unless the
  call waits for it. -/
  | awaitChild (patience : Patience)
  | kill (pid : Pid) (signal : Signal)
  | arrange (signal : Signal) (disposition : Disposition)
  /-- The disposition of a signal. -/
  | disposition (signal : Signal)
  /-- The signals that were caught since the last such call. -/
  | caught
  | environment
  | setEnvironment (bindings : List (String × String))
  | workingDirectory
  | parentId
  deriving Inhabited

/-- The type of the answer to a call. -/
@[reducible]
def Call.Reply : Call → Type
  | request made => made.Reply
  | sleep _ => Unit
  | inspect .. => Except Errno FileStatus
  | inspectOpen _ => Except Errno OpenStatus
  | list _ => Except Errno (List String)
  | seek .. => Unit
  | available _ => Nat
  | putAside .. => Except Errno Descriptor
  | awaitChild _ => Except Errno (Option (Pid × Death))
  | kill .. => Except Errno Unit
  | arrange .. => Unit
  | disposition _ => Disposition
  | caught => List Signal
  | environment => List (String × String)
  | setEnvironment _ => Unit
  | workingDirectory => Path
  | parentId => Pid

/-- What a program does. -/
abbrev Program := Behavior Call.Reply

namespace Program

/-- A call alone. -/
def call (made : Call) : Program made.Reply := .ask made .done

/-- A call of the shell alone. -/
def request (made : Request) : Program made.Reply := .ask (.request made) .done

def read (fd : Descriptor) (count : Nat) : Program (Except Errno Bytes) := request (.read fd count)

def close (fd : Descriptor) : Program Unit := do
  let _ ← request (.close fd)

def openToRead (path : String) : Program (Except Errno Descriptor) :=
  request (.openFile path { access := .readOnly })

/-- A child process alone. -/
def fork (child : Program Status) : Program (Except Errno Pid) := .spawn child .done

/-- The process becomes another program; the reason if it does not. -/
def become (program : String) (argv : List String) : Program Errno := .exec program argv .done

/-- `body` until it answers with a result. -/
def iterate {σ β : Type} (body : σ → Program (σ ⊕ β)) (start : σ) : Program β :=
  Behavior.iterate body start

/-- All bytes, in as many calls as it takes. -/
def writeAll (fd : Descriptor) (bytes : Bytes) : Program (Except Errno Unit) :=
  iterate (fun bytes : Bytes => do
    if bytes.isEmpty then
      return .inr (.ok ())
    match ← request (.write fd bytes) with
    | .ok taken => return .inl (bytes.drop taken)
    | .error errno => return .inr (.error errno)) bytes

/-- All bytes up to the end. -/
def readAll (fd : Descriptor) : Program (Except Errno Bytes) :=
  iterate (fun chunks : List Bytes => do
    match ← read fd 65536 with
    | .ok [] => return .inr (.ok chunks.reverse.flatten)
    | .ok chunk => return .inl (chunk :: chunks)
    | .error errno => return .inr (.error errno)) []

end Program

/-- A request of the shell as a program makes it. A message goes to the journal, and to standard
error unless it is for the maintainer only. -/
def perform : (request : Request) → Program request.Reply
  | .report level message =>
    .note (level.name ++ ": " ++ message) <|
      match level with
      | .debug => .done ()
      | .user | .system => do
        let _ ← Program.writeAll 2 (Text.encode ("tsh: " ++ message ++ "\n"))
  | request => Program.request request

/-- An action as a program. -/
def Program.ofAction (action : Action Status) : Program Status := action.mapCalls perform

end TinyShell.Machine
