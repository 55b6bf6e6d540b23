import TinyShell.Machine.Sh.Start
import TinyShell.Machine.Tool.Cat
import TinyShell.Machine.Tool.Count
import TinyShell.Machine.Tool.Exchange
import TinyShell.Machine.Tool.Head
import TinyShell.Machine.Tool.List
import TinyShell.Machine.Tool.Seq
import TinyShell.Machine.Tool.Sort
import TinyShell.Machine.Tool.Tail
import TinyShell.Machine.Tool.Uniq

/-!
# The toolbox

The tools that a machine has, by name. They stand in for programs that are not part of the shell, so
that the command line has something to start; no theorem is about what they do.
-/

namespace TinyShell.Machine

/-- The tools by name. -/
def toolbox : List (String × (List String → Program Status)) :=
  [("true", fun _ => .done 0),
    ("false", fun _ => .done 1),
    ("echo", Tool.toProgram Tool.echo 1),
    ("cat", Tool.toProgram Tool.cat 1),
    ("head", Tool.toProgram Tool.head 1),
    ("tail", Tool.toProgram Tool.tail 1),
    ("tr", Tool.toProgram Tool.tr 1),
    ("wc", Tool.toProgram Tool.wc 1),
    ("seq", Tool.toProgram Tool.seq 1),
    ("sleep", Tool.toProgram Tool.sleep 1),
    ("sort", Tool.toProgram Tool.sort 2),
    ("uniq", Tool.toProgram Tool.uniq 1),
    ("ls", Tool.toProgram Tool.ls 2),
    ("sh", Sh.tool)]

/-- The tool of a name, started with its words. -/
def tool? (name : String) (argv : List String) : Option (Program Status) :=
  (toolbox.lookup name).map (· argv)

end TinyShell.Machine
