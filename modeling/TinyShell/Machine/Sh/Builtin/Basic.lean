import TinyShell.Machine.Sh.Env

/-!
# Built-in commands

The names of the commands that a script runs by itself, and how their options are read.
-/

namespace TinyShell.Machine.Sh.Builtin

/-- The commands at whose faults a script ends. -/
def specialNames : List String :=
  [".", ":", "break", "continue", "eval", "exec", "exit", "export", "local", "readonly", "return",
    "set", "shift", "times", "trap", "unset"]

/-- The other commands. -/
def plainNames : List String :=
  ["[", "alias", "bg", "cd", "chdir", "command", "echo", "false", "fg", "getopts", "hash", "jobs",
    "kill", "printf", "pwd", "read", "test", "true", "type", "ulimit", "umask", "unalias",
    "wait"]

def isSpecialName (name : String) : Bool := specialNames.contains name

def isBuiltin (name : String) : Bool := isSpecialName name || plainNames.contains name

/-- Whether the words of a command can be settings. -/
def takesSettings (name : String) : Bool :=
  ["alias", "export", "local", "readonly"].contains name

/-- An option with its value. -/
abbrev Setting := Char × String

/-- The options in one word, behind `found`, which has its last option first; and the words
behind. An option can have a value, which may be the next word. -/
def readLetters (known : List (Char × Bool)) (found : List Setting) (rest : List String) :
    List Char → Sh (List Setting × List String)
  | [] => return (found, rest)
  | c :: letters =>
    match known.lookup c with
    | none => fail ("Illegal option -" ++ c.toString)
    | some false => readLetters known ((c, "") :: found) rest letters
    | some true =>
      if !letters.isEmpty then return ((c, String.ofList letters) :: found, rest)
      else
        match rest with
        | value :: rest => return ((c, value) :: found, rest)
        | [] => fail ("No arg for -" ++ c.toString ++ " option")

/-- The options of a command, of those that are `known` with whether they have a value; and the
operands behind them. `count` bounds the words. -/
def readWords (known : List (Char × Bool)) : (count : Nat) → List Setting → List String →
    Sh (List Setting × List String)
  | 0, found, words => return (found.reverse, words)
  | _, found, [] => return (found.reverse, [])
  | count + 1, found, word :: rest =>
    match word.toList with
    | ['-', '-'] => return (found.reverse, rest)
    | '-' :: c :: letters => do
      let (found, rest) ← readLetters known found rest (c :: letters)
      readWords known count found rest
    | _ => return (found.reverse, word :: rest)

/-- The options of a command and its operands. -/
def readOptions (known : List (Char × Bool)) (args : List String) :
    Sh (List Setting × List String) :=
  readWords known (args.length + 1) [] args

end TinyShell.Machine.Sh.Builtin
