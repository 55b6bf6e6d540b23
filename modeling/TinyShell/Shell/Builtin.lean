import TinyShell.Shell.Basic
import TinyShell.Text.Numeral

/-!
# Builtins

The commands that change the shell itself and so run in its own process.
-/

namespace TinyShell

/-- The commands of the shell. -/
inductive Builtin where
  | cd
  | exit
  | quit
  deriving DecidableEq, Repr, Inhabited

namespace Builtin

/-- The builtin of a name. -/
def ofName? : String → Option Builtin
  | "cd" => some cd
  | "exit" => some exit
  | "quit" => some quit
  | _ => none

/-- Where `cd` goes without an argument. -/
def homeDirectory : String := "/"

/-- The number that an argument starts with. -/
def statusOf (argument : String) : Status := Text.readDecimal argument.toList

/-- A builtin with the words of its command. `cd` reports a failure and succeeds all the same;
`exit` ends the process, and `quit` the loop. -/
def run (shell : Shell) (argv : List String) : Builtin → Action (Status × Shell)
  | cd => do
    let directory := argv[1]?.getD homeDirectory
    match ← Action.call (.changeDirectory directory) with
    | .ok () => return (0, shell)
    | .error errno =>
      Action.report .user ("cd: " ++ directory ++ ": " ++ errno.describe)
      return (0, shell)
  | exit => do
    let status := (argv[1]?.map statusOf).getD 0
    Action.log ("exit " ++ Text.decimal status)
    .exit status
  | quit =>
    return (0, { shell with
      running := false
      lastStatus := (argv[1]?.map statusOf).getD shell.lastStatus })

end Builtin

end TinyShell
