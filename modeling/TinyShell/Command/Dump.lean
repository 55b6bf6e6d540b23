import TinyShell.Command.Basic
import TinyShell.Text.Lines
import TinyShell.Text.Numeral

/-!
# Dumps of commands

The tree of a command, a node to a line and what is below it one tab deeper.
-/

namespace TinyShell

/-- The line of a redirection. -/
def Redirection.dumpLine (redirection : Redirection) : String :=
  "REDIRECT: kind=" ++ redirection.kind.name ++ " fd=" ++ Text.decimal redirection.source ++
    " path=" ++ redirection.path.getD ""

/-- A simple command: its name, its arguments, the redirections that are set, and its faults. -/
def SimpleCommand.dumpLines (command : SimpleCommand) (indent : String) : List String :=
  (indent ++ "Simple: cmd=" ++ command.name?.getD "(none)") ::
    (command.argv.mapIdx fun i arg => indent ++ "\targv[" ++ toString i ++ "]=" ++ arg) ++
    ((command.slots.toList.filter Redirection.isSet).map fun redirection =>
      indent ++ "\t" ++ redirection.dumpLine) ++
    (if command.background then [indent ++ "\tBACKGROUND"] else []) ++
    [indent ++ "\tFlags=" ++ command.faults.text]

/-- Stages with a bar between two of them. -/
def Pipeline.dumpStages (indent : String) : List SimpleCommand → List String
  | [] => []
  | [stage] => stage.dumpLines indent
  | stage :: rest => stage.dumpLines indent ++ (indent ++ "|") :: dumpStages indent rest

/-- A pipeline: its length and faults, its stages, and an end mark. -/
def Pipeline.dumpLines (pipeline : Pipeline) (indent : String) : List String :=
  (indent ++ "Pipeline: len=" ++ toString pipeline.length ++ " flags=" ++ pipeline.faults.text) ::
    dumpStages (indent ++ "\t") pipeline.stages ++ [indent ++ "\tEND;"]

namespace Command

mutual

/-- The lines of a command and of what is below it. -/
def dumpLines (indent : String) : Command → List String
  | empty faults => [indent ++ "Empty: flags=" ++ faults.text]
  | invalid faults => [indent ++ "Invalid: flags=" ++ faults.text]
  | simple command => command.dumpLines indent
  | pipeline stages => stages.dumpLines indent
  | list entries faults =>
    (indent ++ "List: len=" ++ toString entries.length ++ " flags=" ++ faults.text) ::
      dumpEntries (indent ++ "\t") entries

/-- The lines of the entries of a list. -/
def dumpEntries (indent : String) : List Command → List String
  | [] => []
  | entry :: rest => dumpLines indent entry ++ dumpEntries indent rest

end

/-- The dump that goes to the journal. -/
def dump (command : Command) : String := Text.unlines (command.dumpLines "")

end Command

end TinyShell
