import TinyShell.Errno
import TinyShell.Handle
import TinyShell.Text.Utf8

/-!
# Requests

The calls that a process makes to the operating system and goes on from, each with the type of its
reply. Starting a process, becoming another program and ending are not among them: they change who
runs, not what is known.
-/

namespace TinyShell

open Text (Bytes)

/-- Whom a message is for: the user who mistyped, whoever runs the system, or nobody but the
maintainer. -/
inductive Level where
  | user
  | system
  | debug
  deriving DecidableEq, Repr, Inhabited

/-- The level as reports name it. -/
def Level.name : Level → String
  | user => "User"
  | system => "System"
  | debug => "Debug"

/-- What an open file may be used for. -/
inductive Access where
  | readOnly
  | writeOnly
  | readWrite
  deriving DecidableEq, Repr, Inhabited

/-- How a file is opened. -/
structure OpenFlags where
  access : Access
  create : Bool := false
  truncate : Bool := false
  append : Bool := false
  deriving DecidableEq, Repr, Inhabited

/-- The access and then the flags that are set, joined by bars. -/
def OpenFlags.text (flags : OpenFlags) : String :=
  let access := match flags.access with
    | .readOnly => "O_RDONLY"
    | .writeOnly => "O_WRONLY"
    | .readWrite => "O_RDWR"
  access ++ (if flags.create then "|O_CREAT" else "") ++
    (if flags.truncate then "|O_TRUNC" else "") ++ (if flags.append then "|O_APPEND" else "")

/-- The two ends of a pipe. -/
structure Pipe where
  readEnd : Descriptor
  writeEnd : Descriptor
  deriving DecidableEq, Repr, Inhabited

/-- A call that is answered. -/
inductive Request where
  | pipe
  | duplicate (source target : Descriptor)
  | close (fd : Descriptor)
  | openFile (path : String) (flags : OpenFlags)
  /-- At most `count` bytes; none of them means the end of input. -/
  | read (fd : Descriptor) (count : Nat)
  /-- The answer is how many of the bytes were taken. -/
  | write (fd : Descriptor) (bytes : Bytes)
  /-- Until the child has ended. -/
  | wait (pid : Pid)
  /-- Without waiting; `none` for a child that still runs. -/
  | tryWait (pid : Pid)
  | changeDirectory (path : String)
  | processId
  | report (level : Level) (message : String)
  deriving DecidableEq, Repr, Inhabited

/-- The type of the answer to a call. -/
@[reducible]
def Request.Reply : Request → Type
  | pipe => Except Errno Pipe
  | duplicate .. => Except Errno Unit
  | close _ => Except Errno Unit
  | openFile .. => Except Errno Descriptor
  | read .. => Except Errno Bytes
  | write .. => Except Errno Nat
  | wait _ => Except Errno Status
  | tryWait _ => Except Errno (Option Status)
  | changeDirectory _ => Except Errno Unit
  | processId => Pid
  | report .. => Unit

end TinyShell
