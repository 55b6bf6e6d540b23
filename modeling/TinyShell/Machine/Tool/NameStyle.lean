import TinyShell.Text.FileName

/-!
# Styles of names

The ways in which file names are listed: as they are, as one would type them, or with escapes.
-/

namespace TinyShell.Machine.Tool

open Text (Bytes)

/-- A way in which names are written. -/
inductive NameStyle where
  | literal
  /-- As one would type them, between quotes if they need them. -/
  | shell
  | shellAlways
  /-- The same, with escapes for what does not print. -/
  | shellEscape
  | shellEscapeAlways
  /-- Between double quotes, with backslashes and escapes. -/
  | c
  /-- The same, but plainly if nothing would be escaped. -/
  | cMaybe
  /-- With backslashes and escapes, without quotes. -/
  | escape
  /-- Between single quotes, with backslashes and escapes. -/
  | locale
  deriving DecidableEq, Repr, Inhabited

namespace NameStyle

/-- The styles by name. -/
def words : List (String × NameStyle) :=
  [("literal", literal), ("shell", shell), ("shell-always", shellAlways),
    ("shell-escape", shellEscape), ("shell-escape-always", shellEscapeAlways), ("c", c),
    ("c-maybe", cMaybe), ("escape", escape), ("locale", locale), ("clocale", c)]

/-- A name between quotes, with all bytes as they are. -/
def rawQuoted (name : String) : String :=
  if name.contains '\'' && Text.fitsDoubleQuotes (Text.encode name) then "\"" ++ name ++ "\""
  else
    let inside := name.toList.flatMap fun char =>
      if char = '\'' then ['\'', '\\', '\'', '\''] else [char]
    String.ofList ('\'' :: inside ++ ['\''])

/-- A name in a style. The bytes of `also` are to be marked like others that mean something. -/
def apply (style : NameStyle) (also : String) (name : String) : String :=
  let bytes := Text.encode name
  let others := Text.encode also
  let awkward := Text.isAwkward name || bytes.any others.contains
  let marked (mark : UInt8) (others : Bytes) : String :=
    String.ofList (Text.escapedBytes mark others bytes)
  match style with
  | .literal => name
  | .shell =>
    if awkward || bytes.any [9, 10, 13].contains then rawQuoted name else name
  | .shellAlways => rawQuoted name
  | .shellEscape =>
    if awkward || bytes.any (!Text.isPrintable ·) then Text.quotedName name else name
  | .shellEscapeAlways => Text.quotedName name
  | .c => "\"" ++ marked 0x22 others ++ "\""
  | .cMaybe =>
    if bytes.any (fun byte => byte = 0x22 || others.contains byte || !Text.isPrintable byte) then
      "\"" ++ marked 0x22 [] ++ "\""
    else name
  | .escape => marked 0x5c others
  | .locale => "'" ++ marked 0x27 others ++ "'"

/-- Whether names are lined up as if all of them had quotes. -/
def aligns (style : NameStyle) : Bool :=
  style = .shell || style = .shellEscape || style = .cMaybe

end NameStyle

end TinyShell.Machine.Tool
