import TinyShell.Machine.Sh.Env
import TinyShell.Machine.Sh.Pattern

/-!
# File names by patterns

The names of files that a pattern matches, directory by directory.
-/

namespace TinyShell.Machine.Sh

/-- The components of a pattern. -/
def components (chars : List Marked) : List (List Marked) :=
  let (behind, first) := chars.foldr (fun c ((behind, first) : List (List Marked) × List Marked) =>
    if c.1 = '/' then (first :: behind, []) else (behind, c :: first)) ([], [])
  first :: behind

/-- The text of marked characters; a backslash that is not quoted only shields. -/
def literal : List Marked → List Char
  | [] => []
  | [(c, _)] => [c]
  | ('\\', false) :: (c, _) :: rest => c :: literal rest
  | (c, _) :: rest => c :: literal rest

/-- The paths that start with `place` and go on as the components say. -/
def pathsFrom (place : String) : List (List Marked) → Sh (List String)
  | [] => return []
  | component :: rest => do
    if isPattern component then
      let entries ← match ← call (.list (toText (if place.isEmpty then "." else place))) with
        | .ok names => pure (["." , ".."] ++ names.map fromText)
        | .error _ => pure []
      let mut found := []
      for entry in entries do
        if matchesName component entry then
          let path := place ++ entry
          if rest.isEmpty then
            found := found ++ [path]
          else
            found := found ++ (← pathsFrom (path ++ "/") rest)
      return found
    else
      let path := place ++ String.ofList (literal component)
      if rest.isEmpty then
        match ← inspect path true with
        | .ok _ => return [path]
        | .error _ => return []
      else pathsFrom (path ++ "/") rest

/-- The paths that a pattern matches, in order; the text itself if there are none. -/
def matchingPaths (chars : List Marked) : Sh (List String) := do
  let text := String.ofList (chars.map (·.1))
  if (← isOn 'f') || !isPattern chars then return [text]
  else
    match ← pathsFrom "" (components chars) with
    | [] => return [text]
    | paths => return paths.mergeSort textBefore

end TinyShell.Machine.Sh
