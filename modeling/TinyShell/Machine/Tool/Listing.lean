import TinyShell.Machine.Sh.Pattern
import TinyShell.Machine.Tool.Page
import TinyShell.Machine.Tool.NameStyle
import TinyShell.Machine.Tool.Order

/-!
# Listings

How names of files are chosen, ordered and shown.
-/

namespace TinyShell.Machine.Tool

open Text (Bytes)

/-- By what names are ordered. -/
inductive NameOrder where
  /-- As they come. -/
  | none
  | name
  | size
  | time
  | suffix
  | version
  | width
  deriving DecidableEq, Repr, Inhabited

/-- Which files have a mark behind their names, for what they are. -/
inductive KindMarks where
  | none
  | directories
  | kinds
  /-- All kinds, and programs. -/
  | all
  deriving DecidableEq, Repr, Inhabited

/-- Which links are followed. -/
inductive Follow where
  | never
  /-- Operands that lead to directories. -/
  | directories
  | operands
  | always
  deriving DecidableEq, Repr, Inhabited

/-- How files are listed. -/
structure Listing where
  page : Page := {}
  /-- Whether there is a line for each file with all that is known of it. -/
  long : Bool := false
  order : Option NameOrder := none
  /-- Whether a time was asked for, which orders names if nothing else does. -/
  timed : Bool := false
  reverse : Bool := false
  directoriesFirst : Bool := false
  /-- Whether names that start with a dot are shown, and those of the directory itself and the one
  above it. -/
  dotted : Bool := false
  doubleDotted : Bool := false
  /-- Patterns of names that are not shown, and of those that are shown only with the dotted. -/
  ignored : List String := []
  hidden : List String := []
  /-- Whether directories are shown by their own names. -/
  itself : Bool := false
  recursive : Bool := false
  marks : KindMarks := .none
  follow : Option Follow := none
  style : Option NameStyle := none
  /-- Whether what does not print is shown as question marks. -/
  masks : Bool := false
  /-- Whether there is a column for the room that files take. -/
  sized : Bool := false
  /-- Whether there is a column for the security context, which nothing has. -/
  context : Bool := false
  deriving Inhabited

/-- A name with what is known of the file. -/
structure Listed where
  name : String
  status : FileStatus
  deriving Inhabited

namespace Listing

/-! ## Names -/

/-- The style of names. -/
def nameStyle (listing : Listing) : NameStyle := listing.style.getD .literal

/-- The marks that a name could be taken to have. -/
def ambiguous (listing : Listing) : String :=
  (match listing.marks with
    | .none | .directories => ""
    | .kinds => "*=>@|"
    | .all => "=>@|") ++ (if listing.nameStyle = .escape then " " else "")

/-- A name in the style of the listing, where the characters of `also` mean something. -/
def styled (listing : Listing) (also name : String) : String :=
  let text := listing.nameStyle.apply also name
  if listing.masks && [.literal, .shell, .shellAlways].contains listing.nameStyle then
    String.ofList ((Text.encode text).map fun byte =>
      if Text.isPrintable byte then Char.ofNat byte.toNat else '?')
  else text

/-- The columns that a text takes. -/
def printedWidth (text : String) : Nat := (Text.encode text).countP Text.isPrintable

/-- Whether a name has quotes. -/
def isQuoted (listing : Listing) (name : String) : Bool :=
  listing.nameStyle.apply listing.ambiguous name ≠ name

/-- What names have around them for the sake of their neighbours. -/
structure Margins where
  /-- Whether names without quotes have a blank in their place, some name having quotes. -/
  indented : Bool := false
  /-- The columns of the room that files take. -/
  sizes : Nat := 0

/-- The kilobytes that a file takes. -/
def room (status : FileStatus) : Nat :=
  match status.kind with
  | .directory | .regular => (status.size + 4095) / 4096 * 4
  | .character | .channel | .link => 0

/-- The margins of names that are shown together. -/
def margins (listing : Listing) (entries : List Listed) : Margins :=
  let lined : Bool := listing.long || (listing.page.columns ≠ 0 &&
    (listing.page.spread = .down || listing.page.spread = .across))
  { indented := lined && listing.nameStyle.aligns &&
      entries.any fun entry => listing.isQuoted entry.name
    sizes := if listing.page.spread = .commas then 0
      else (entries.map fun entry => (toString (room entry.status)).length).foldl max 0 }

/-- A name as it is shown, with a blank in the place of quotes if `indented` says so. -/
def shown (listing : Listing) (indented : Bool) (name : String) : String :=
  (if indented && !listing.isQuoted name then " " else "") ++ listing.styled listing.ambiguous name

/-- The mark of a file. -/
def mark (listing : Listing) (status : FileStatus) : String :=
  let others := listing.marks = .kinds || listing.marks = .all
  match status.kind with
  | .directory => if listing.marks = .none then "" else "/"
  | .regular => if listing.marks = .all && status.executable then "*" else ""
  | .link => if others then "@" else ""
  | .channel => if others then "|" else ""
  | .character => ""

/-- A name in its place, with all that stands around it. -/
def cell (listing : Listing) (margins : Margins) (entry : Listed) : Cell :=
  let size := if listing.sized then
      Text.decode (padded margins.sizes (room entry.status)) ++ " "
    else ""
  let text := size ++ (if listing.context then "? " else "") ++
    listing.shown margins.indented entry.name ++ listing.mark entry.status
  { text, width := printedWidth text }

/-! ## Order -/

/-- What is behind the last dot, with the dot. -/
def suffix (name : String) : Bytes :=
  let behind := (Text.encode name).reverse
  let letters := behind.takeWhile (· ≠ 46)
  if letters.length = behind.length then [] else 46 :: letters.reverse

def nameOrder (listing : Listing) : NameOrder :=
  listing.order.getD (if listing.timed && !listing.long then .time else .name)

/-- The order of two names. -/
def compare (listing : Listing) (indented : Bool) (a b : Listed) : Ordering :=
  let byName := compareBytes (Text.encode a.name) (Text.encode b.name)
  let width (entry : Listed) : Nat := printedWidth (listing.shown indented entry.name)
  let order := match listing.nameOrder with
    | .none | .name => byName
    | .size => (Ord.compare b.status.size a.status.size).then byName
    | .time => (Ord.compare b.status.time a.status.time).then byName
    | .suffix => (compareBytes (suffix a.name) (suffix b.name)).then byName
    | .version => (compareVersions (Text.encode a.name) (Text.encode b.name)).then byName
    | .width => (Ord.compare (width a) (width b)).then byName
  let order := if listing.reverse then order.swap else order
  if listing.directoriesFirst then
    let rank (entry : Listed) : Nat := if entry.status.kind = .directory then 0 else 1
    (Ord.compare (rank a) (rank b)).then order
  else order

/-- Names in order. -/
def arrange (listing : Listing) (entries : List Listed) : List Listed :=
  if listing.nameOrder = .none then entries
  else
    let margins := listing.margins entries
    entries.mergeSort fun a b => listing.compare margins.indented a b ≠ .gt

/-! ## Choice -/

/-- Whether a pattern matches a name. -/
def matchesPattern (pattern name : String) : Bool :=
  -- A bracket is negated by either of two characters.
  let chars := (Sh.fromText (pattern.replace "[^" "[!")).toList
  Sh.matchesName (chars.map (·, false)) (Sh.fromText name)

/-- Whether a name in a directory is shown. -/
def admits (listing : Listing) (name : String) : Bool :=
  let plain := !listing.dotted
  !(plain && name.startsWith ".") &&
    !(plain && listing.hidden.any (matchesPattern · name)) &&
    !listing.ignored.any (matchesPattern · name)

/-- What links are followed. -/
def following (listing : Listing) : Follow :=
  listing.follow.getD
    (if listing.itself || listing.marks = .all || listing.long then .never else .directories)

/-! ## Text -/

/-- Names as they share lines. -/
def text (listing : Listing) (margins : Margins) (entries : List Listed) : String :=
  listing.page.apply (entries.map (listing.cell margins))

/-- The line above a directory that says how much room its files take. -/
def total (listing : Listing) (entries : List Listed) : String :=
  if listing.sized || listing.long then
    let sum := (entries.map fun entry => room entry.status).foldl (· + ·) 0
    "total " ++ toString sum ++ listing.page.newline
  else ""

end Listing

end TinyShell.Machine.Tool
