import TinyShell.Machine.Sh.Builtin.Basic

/-!
# Commands on the working directory

The built-in commands that go to another directory and show where the script is. The name of the
directory is kept as it was given, with its links.
-/

namespace TinyShell.Machine.Sh.Builtin

/-- The working directory without links in its name. -/
def physical : Sh String := do
  return fromText ("/" ++ "/".intercalate (← call .workingDirectory))

/-- The name of a directory from another on, without dots in it. -/
def nameFrom (directory path : String) : String :=
  let parts := (if path.startsWith "/" then [] else directory.splitOn "/") ++ path.splitOn "/"
  let kept := parts.foldl (fun (kept : List String) part =>
    if part.isEmpty || part = "." then kept
    else if part = ".." then kept.drop 1
    else part :: kept) []
  let lead := match path.toList with
    | ['/', '/'] => "//"
    | '/' :: '/' :: c :: _ => if c = '/' then "/" else "//"
    | _ => "/"
  lead ++ "/".intercalate kept.reverse

/-- The last of some options that decide between names with links and without. -/
def asksPhysical (options : List Setting) : Bool := (options.getLast?.map (·.1)) = some 'P'

/-- A directory gone to; whether that was possible. -/
def goTo (path : String) (isPhysical : Bool) : Sh Bool := do
  let env ← get
  let name := if isPhysical || env.directory.isEmpty then path else nameFrom env.directory path
  match ← request (.changeDirectory (toText name)) with
  | .error _ => return false
  | .ok () =>
    let name ← if isPhysical || env.directory.isEmpty then physical else pure name
    assign "OLDPWD" (some env.directory) true
    modify fun env => { env with directory := name }
    assign "PWD" (some name) true
    return true

/-- Whether a path is looked for nowhere but where it says. -/
def isAnchored (path : String) : Bool :=
  path.startsWith "/" || ["", ".", ".."].contains ((path.splitOn "/").headD "") && path ≠ ""

/-- The first directory of the search path that has a directory of this name. -/
def searched? (path : String) : List String → Sh (Option (String × Bool))
  | [] => return none
  | place :: rest => do
    let found := if place.isEmpty then path else place ++ "/" ++ path
    match ← inspect found with
    | .ok { kind := .directory, .. } => return some (found, !place.isEmpty)
    | _ => searched? path rest

/-- Another working directory. -/
def cd (args : List String) : Sh Nat := do
  let (options, words) ← readOptions [('L', false), ('P', false)] args
  let env ← get
  let (path, shows) := match words with
    | [] => ((env.value? "HOME").getD "", false)
    | "-" :: _ => ((env.value? "OLDPWD").getD "", true)
    | path :: _ => (path, false)
  let (place, shows) ←
    if isAnchored path then pure (path, shows)
    else
      let path := if path.isEmpty then "." else path
      match env.value? "CDPATH" with
      | none => pure (path, shows)
      | some places =>
        match ← searched? path (places.splitOn ":") with
        | some (found, elsewhere) => pure (found, shows || elsewhere)
        | none => pure (path, shows)
  unless ← goTo place (asksPhysical options) do
    fail ("can't cd to " ++ path)
  if shows then
    put ((← get).directory ++ "\n")
  return 0

/-- The name of the working directory. -/
def pwd (args : List String) : Sh Nat := do
  let (options, _) ← readOptions [('L', false), ('P', false)] args
  let name ← if asksPhysical options then physical else pure (← get).directory
  put (name ++ "\n")
  return 0

end TinyShell.Machine.Sh.Builtin
