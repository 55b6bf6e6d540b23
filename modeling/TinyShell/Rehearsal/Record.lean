import TinyShell.Action.Request

/-!
# Records

What a stand-in for an operating system writes down: the calls made to it, what was written to
standard output, and the messages.
-/

namespace TinyShell

open Text (Bytes)

/-- A call as it was attempted. -/
inductive Attempt where
  | spawn
  | exec (program : String) (argv : List String)
  | ask (request : Request)
  deriving DecidableEq, Repr, Inhabited

/-- An entry of the record. -/
inductive Event where
  | forked (pid : Pid)
  | executed (program : String) (argv : List String)
  | piped (pipe : Pipe)
  /-- Any other call, in the words in which it was made. -/
  | asked (request : Request)
  | failed (attempt : Attempt) (errno : Errno)
  deriving DecidableEq, Repr, Inhabited

/-- A record, oldest entries first. -/
structure Record where
  events : List Event := []
  output : Bytes := []
  reports : List (Level × String) := []
  deriving DecidableEq, Repr, Inhabited

namespace Record

def addEvent (record : Record) (event : Event) : Record :=
  { record with events := record.events ++ [event] }

def addOutput (record : Record) (bytes : Bytes) : Record :=
  { record with output := record.output ++ bytes }

def addReport (record : Record) (level : Level) (message : String) : Record :=
  { record with reports := record.reports ++ [(level, message)] }

/-- The programs executed, with their arguments. -/
def programs (record : Record) : List (String × List String) :=
  record.events.filterMap fun
    | .executed program argv => some (program, argv)
    | _ => none

/-- The number of children started. -/
def forks (record : Record) : Nat :=
  record.events.countP fun
    | .forked _ => true
    | _ => false

/-- Whether a message of this level holds the text. -/
def reported (record : Record) (level : Level) (text : String) : Bool :=
  record.reports.any fun (other, message) => other = level && message.contains text

/-- What was added to a record since it was `earlier`. -/
def since (record earlier : Record) : Record where
  events := record.events.drop earlier.events.length
  output := record.output.drop earlier.output.length
  reports := record.reports.drop earlier.reports.length

end Record

end TinyShell
