import TinyShell.Machine.Sh.Builtin.Basic
import TinyShell.Machine.Sh.Reader

/-!
# Looking for commands

What the first word of a command names: a function, a built-in command, or a program on the search
path.
-/

namespace TinyShell.Machine.Sh

/-- What a command's name stands for. -/
inductive Found where
  | function (function : Function)
  | builtin
  /-- A program; where on the search path it is, unless its name is a path. -/
  | program (path : Option String)
  | missing (errno : Errno)
  deriving Inhabited

/-- The directories in which the programs are that every machine has. -/
def standardPath : List String := ["/usr/local/sbin", "/usr/local/bin", "/usr/sbin", "/usr/bin",
  "/sbin", "/bin"]

/-- The program of a name in the first directory that has it; the reason if none has. -/
def searchProgram (name : String) (errno : Errno) : List String → Sh Found
  | [] => return .missing errno
  | directory :: rest => do
    let path := inDirectory directory name
    match ← inspect path with
    | .error e => searchProgram name (if e = .enoent || e = .enotdir then errno else e) rest
    | .ok status =>
      if status.kind = .regular && status.executable then return .program (some path)
      else searchProgram name .eacces rest

/-- What a name stands for. Functions are passed over if `plain` says so; the search path can be
another than that of the script. -/
def search (name : String) (plain : Bool := false) (directories : Option (List String) := none) :
    Sh Found := do
  if name.contains '/' then return .program none
  let env ← get
  match env.functions.lookup name, plain with
  | some function, false => return .function function
  | _, _ =>
    if Builtin.isBuiltin name then return .builtin
    else
      let found ← searchProgram name .enoent (directories.getD env.searchPath)
      match found, directories with
      | .program (some path), none =>
        modify fun env =>
          { env with tracked := (name, path) :: env.tracked.filter (·.1 ≠ name) }
      | _, _ => pure ()
      return found

namespace Builtin

/-- What a name stands for in words, or as it could be used. -/
def describeName (name : String) (words : Bool) (directories : Option (List String)) :
    Sh Nat := do
  let env ← get
  let line (kind : String) (brief : String) : Sh Nat := do
    put (if words then name ++ kind ++ "\n" else brief ++ "\n")
    return 0
  if (Keyword.ofText? name).isSome then
    line " is a shell keyword" name
  else match env.aliases.lookup name with
    | some value =>
      line (" is an alias for " ++ value) ("alias " ++ name ++ "=" ++ quoted value)
    | none =>
      let tracked := if directories.isNone then env.tracked.lookup name else none
      match tracked with
      | some path => line (" is a tracked alias for " ++ path) path
      | none =>
        match ← search name false directories with
        | .function _ => line " is a shell function" name
        | .builtin =>
          let special := if isSpecialName name then "special " else ""
          line (" is a " ++ special ++ "shell builtin") name
        | .program (some path) => line (" is " ++ path) path
        | .program none =>
          match ← inspect name with
          | .ok _ => line (" is " ++ name) name
          | .error _ => missing
        | .missing _ => missing
where
  missing : Sh Nat := do
    if words then
      put (name ++ ": not found\n")
    return 127

/-- What names stand for, each on a line. -/
def type (args : List String) : Sh Nat := do
  let mut status := 0
  for name in args do
    let found ← describeName name true none
    status := status ||| found
  return status

/-- What one name stands for, if an option asks for that. -/
def command (args : List String) : Sh Nat := do
  let (options, names) ← readOptions [('p', false), ('v', false), ('V', false)] args
  let asked (c : Char) : Bool := options.any (·.1 = c)
  match names with
  | name :: _ =>
    if asked 'v' || asked 'V' then
      describeName name (asked 'V') (if asked 'p' then some standardPath else none)
    else return 0
  | [] => return 0

/-- The programs whose places are known. -/
def hash (args : List String) : Sh Nat := do
  let (options, names) ← readOptions [('r', false), ('v', false)] args
  if options.any (·.1 = 'r') then
    modify fun env => { env with tracked := [] }
    return 0
  if names.isEmpty then
    for (_, path) in (← get).tracked.reverse do
      put (path ++ "\n")
    return 0
  let mut status := 0
  for name in names do
    match ← search name with
    | .missing errno =>
      complain (name ++ ": " ++ reason .program errno)
      status := 1
    | _ => pure ()
  return status

end Builtin

end TinyShell.Machine.Sh
