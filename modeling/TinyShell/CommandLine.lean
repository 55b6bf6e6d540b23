import TinyShell.Machine.Start
import TinyShell.Machine.Toolbox
import TinyShell.Shell.Session

/-!
# The command line

`tsh` reads lines from standard input, `tsh -c LINE` runs one line, and `tsh --version` only says
what it is.

A run takes place on a `Machine`, which stands in for the system and its programs. That part serves
to run the shell, and is no part of what is proved about it.
-/

namespace TinyShell

open Text (Bytes)

/-- What the shell is called with. -/
inductive Invocation where
  | interactive
  | line (text : String)
  | version
  deriving DecidableEq, Repr, Inhabited

namespace Invocation

/-- What follows the letter of an option in the same word; an equals sign is left out. -/
def attached (value : List Char) : String :=
  match value with
  | '=' :: value => String.ofList value
  | value => String.ofList value

/-- The words of a command line, `found` being what the words before them ask for. The version is
shown as soon as it is asked for; nothing is returned for words that have no meaning. -/
def parseWords (found : Invocation) : List String → Option Invocation
  | [] => some found
  | word :: rest =>
    match word.toList with
    | ['-', '-'] => if rest.isEmpty then some found else none
    | '-' :: 'V' :: _ => some version
    | ['-', 'c'] =>
      match found, rest with
      | .interactive, text :: rest => parseWords (.line text) rest
      | _, _ => none
    | '-' :: 'c' :: value =>
      match found with
      | .interactive => parseWords (.line (attached value)) rest
      | _ => none
    | _ => if word = "--version" then some version else none

/-- The words of a command line. -/
def parse (words : List String) : Option Invocation := parseWords .interactive words

end Invocation

/-- What `--version` writes. -/
def versionText : String := "tsh 0.3.0\n"

/-- The shell as a process that ends with a status. -/
def Invocation.action : Invocation → Action Status
  | .interactive => do return (← Shell.runLoop {}).1
  | .line text => do return (← Shell.runLine {} text).1
  | .version => do
    let _ ← writeText .output versionText
    return 0

/-- The steps that a run may take. Nothing that ends takes so many. -/
def stepBound : Nat := 0x1000000000000000

/-- The run of a shell as the first process of a machine: its code, and the machine after it and
all its children; nothing if the run went beyond `stepBound`. -/
def Invocation.run (invocation : Invocation) (source : Machine.Source) (sink : Machine.Sink)
    (files : Option (List (String × Option Bytes))) : Option (Nat × Machine) := do
  let world : Machine.World := {
    machine := Machine.start (Machine.toolbox.map (·.1)) source sink files
    programs := [(Machine.firstPid, Machine.Program.ofAction invocation.action)]
    tools := Machine.tool? }
  let machine ← world.run stepBound
  let death ← machine.outcome?
  return (death.code, machine)

end TinyShell
