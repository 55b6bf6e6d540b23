/-!
# Lines

Text made of lines that each end in a newline.
-/

namespace TinyShell.Text

/-- Each line followed by a newline. -/
def unlines (lines : List String) : String :=
  String.join (lines.map (· ++ "\n"))

/-- The pieces between newlines; one newline at the end opens no further piece. -/
def lines (text : String) : List String :=
  let pieces := text.splitOn "\n"
  if pieces.getLast? = some "" then pieces.dropLast else pieces

end TinyShell.Text
