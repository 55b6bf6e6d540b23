import TinyShell.Action.Basic
import TinyShell.Command.Basic
import TinyShell.Text.Numeral

/-!
# Children

What a child process does before its program: it puts files and pipe ends in the place of the
standard descriptors, and then becomes the program. The first step that fails ends the child.
-/

namespace TinyShell.Child

/-- The status of a child that did not come to its program. -/
def failure : Status := 1

/-- `fd` in the place of `target`; if it is there already, nothing is to be done. -/
def redirect (fd target : Descriptor) : Action (Except Status Unit) := do
  if fd = target then
    return .ok ()
  match ← Action.call (.duplicate fd target) with
  | .ok () => return .ok ()
  | .error errno =>
    Action.report .system ("dup2 " ++ Text.decimal fd ++ " -> " ++ Text.decimal target ++ ": " ++
      errno.text)
    return .error failure

/-- How the file of a redirection is opened: for reading, or for writing with what it held dropped
or kept. -/
def openFlags : RedirKind → OpenFlags
  | .input => { access := .readOnly }
  | .output => { access := .writeOnly, create := true, truncate := true }
  | .append => { access := .writeOnly, create := true, append := true }
  | .unset => { access := .readOnly }

/-- A file in the place of a descriptor. The number under which it was opened is closed, unless it
is that very descriptor. -/
def redirectToFile (source : Descriptor) (path : String) (kind : RedirKind) :
    Action (Except Status Unit) := do
  match ← Action.call (.openFile path (openFlags kind)) with
  | .error errno =>
    Action.report .system ("cannot open " ++ path ++ ": " ++ errno.describe)
    return .error failure
  | .ok fd =>
    if fd = source then
      return .ok ()
    match ← redirect fd source with
    | .error status => return .error status
    | .ok () =>
      let _ ← Action.call (.close fd)
      return .ok ()

/-- One redirection that is set. One with neither a descriptor nor a path changes nothing. -/
def applyOne (redirection : Redirection) : Action (Except Status Unit) :=
  match redirection.target, redirection.path with
  | some fd, _ => redirect fd redirection.source
  | none, some path => redirectToFile redirection.source path redirection.kind
  | none, none => do
    Action.report .debug
      ("redirection of fd " ++ Text.decimal redirection.source ++ " has no target")
    return .ok ()

/-- The redirections in order, up to the first that fails. -/
def applyAll : List Redirection → Action (Except Status Unit)
  | [] => return .ok ()
  | redirection :: rest => do
    match ← applyOne redirection with
    | .error status => return .error status
    | .ok () => applyAll rest

/-- The slots of a command that are set. -/
def applySlots (slots : Slots) : Action (Except Status Unit) :=
  applyAll (slots.toList.filter Redirection.isSet)

/-- Why a program did not start, as the user reads it. -/
def execMessage (name : String) : Errno → String
  | .enoent => name ++ ": command not found"
  | .eacces => name ++ ": permission denied"
  | .enoexec => name ++ ": exec format error"
  | errno => name ++ ": " ++ errno.describe

/-- The process becomes the program. -/
def become (command : SimpleCommand) : Action Status :=
  let name := command.name?.getD ""
  .exec name command.argv fun errno => do
    Action.report .user (execMessage name errno)
    return failure

/-- The child of a command that stands alone. -/
def ofCommand (command : SimpleCommand) : Action Status := do
  match ← applySlots command.slots with
  | .error status => return status
  | .ok () => become command

/-- Both ends of each pipe are closed, in the order of the pipes. -/
def closePipes : List Pipe → Action Unit
  | [] => return ()
  | pipe :: rest => do
    let _ ← Action.call (.close pipe.readEnd)
    let _ ← Action.call (.close pipe.writeEnd)
    closePipes rest

/-- An end of a pipe in the place of a descriptor, if there is such a pipe. -/
def wire (fd : Option Descriptor) (target : Descriptor) : Action (Except Status Unit) :=
  match fd with
  | none => return .ok ()
  | some fd => redirect fd target

/-- The child of a stage. It reads from the pipe before it and writes to the one after it; its own
redirections come later and so win. A stage without words only does its redirections. -/
def ofStage (pipes : List Pipe) (before after : Option Pipe) (stage : SimpleCommand) :
    Action Status := do
  match ← wire (before.map Pipe.readEnd) .input with
  | .error status => return status
  | .ok () =>
  match ← wire (after.map Pipe.writeEnd) .output with
  | .error status => return status
  | .ok () =>
  closePipes pipes
  match ← applySlots stage.slots with
  | .error status => return status
  | .ok () => if stage.isEmpty then return 0 else become stage

end TinyShell.Child
