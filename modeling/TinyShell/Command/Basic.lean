import TinyShell.Fault
import TinyShell.Handle
import TinyShell.Limits

/-!
# Commands

A parsed line is a tree: simple commands, pipelines of them, and lists of both. Every node carries
the faults found below it.
-/

namespace TinyShell

/-- What a redirection does to its descriptor. -/
inductive RedirKind where
  | input
  | output
  | append
  | unset
  deriving DecidableEq, Repr, Inhabited

/-- The kind as dumps name it. -/
def RedirKind.name : RedirKind → String
  | input => "In"
  | output => "Out"
  | append => "Append"
  | unset => "None"

/-- In the process of a command, `source` becomes a copy of the open descriptor `target`, or else
the file opened from `path`. -/
structure Redirection where
  source : Descriptor
  target : Option Descriptor
  path : Option String
  kind : RedirKind
  deriving DecidableEq, Repr, Inhabited

namespace Redirection

/-- The redirection that leaves its descriptor alone. -/
def none (source : Descriptor) : Redirection := ⟨source, .none, .none, .unset⟩

/-- The redirection to a file. -/
def toPath (source : Descriptor) (kind : RedirKind) (path : String) : Redirection :=
  ⟨source, .none, some path, kind⟩

def isSet (redirection : Redirection) : Bool := redirection.kind ≠ .unset

end Redirection

/-- The redirections of a command, one for each standard descriptor. -/
structure Slots where
  input : Redirection := .none 0
  output : Redirection := .none 1
  error : Redirection := .none 2
  deriving DecidableEq, Repr, Inhabited

namespace Slots

/-- The slots in the order in which they apply. -/
def toList (slots : Slots) : List Redirection := [slots.input, slots.output, slots.error]

/-- The slots with a redirection to a file. Reading goes to the first slot, writing to the
second, and the last redirection of a slot is the one that counts. -/
def redirect (slots : Slots) (kind : RedirKind) (path : String) : Slots :=
  match kind with
  | .input => { slots with input := .toPath 0 .input path }
  | .output => { slots with output := .toPath 1 .output path }
  | .append => { slots with output := .toPath 1 .append path }
  | .unset => slots

end Slots

/-- One program with its arguments and redirections: `cat < in.txt > out.txt &`. -/
structure SimpleCommand where
  argv : List String := []
  slots : Slots := {}
  faults : Faults := ∅
  background : Bool := false
  deriving DecidableEq, Repr, Inhabited

namespace SimpleCommand

/-- The first word, which names the program. -/
def name? (command : SimpleCommand) : Option String := command.argv.head?

def argc (command : SimpleCommand) : Nat := command.argv.length

def isEmpty (command : SimpleCommand) : Bool := command.argv.isEmpty

/-- The command with one more fault. -/
def withFault (command : SimpleCommand) (fault : Fault) : SimpleCommand :=
  { command with faults := command.faults.insert fault }

end SimpleCommand

/-- Simple commands, each of which reads what the one before it writes. -/
structure Pipeline where
  stages : List SimpleCommand := []
  faults : Faults := ∅
  deriving DecidableEq, Repr, Inhabited

namespace Pipeline

def length (pipeline : Pipeline) : Nat := pipeline.stages.length

/-- A pipeline is in the background as soon as one of its stages is. -/
def isBackground (pipeline : Pipeline) : Bool := pipeline.stages.any SimpleCommand.background

end Pipeline

/-- A parsed line, or a part of one. -/
inductive Command where
  /-- Nothing to run. -/
  | empty (faults : Faults)
  /-- Over a limit: nothing of it may run. -/
  | invalid (faults : Faults)
  | simple (command : SimpleCommand)
  | pipeline (stages : Pipeline)
  /-- Commands that run one after the other. -/
  | list (entries : List Command) (faults : Faults)

namespace Command

instance : Inhabited Command := ⟨.empty ∅⟩

/-- The faults of this node and of all below it. -/
def faults : Command → Faults
  | empty faults => faults
  | invalid faults => faults
  | simple command => command.faults
  | pipeline stages => stages.faults
  | list _ faults => faults

def hasFaults (command : Command) : Bool := !command.faults.isEmpty

def isEmpty : Command → Bool
  | empty _ => true
  | _ => false

def isInvalid : Command → Bool
  | invalid _ => true
  | _ => false

/-- The kind of node. -/
def kindName : Command → String
  | empty _ => "Empty"
  | invalid _ => "Invalid"
  | simple _ => "Simple"
  | pipeline _ => "Pipeline"
  | list .. => "List"

end Command

end TinyShell
