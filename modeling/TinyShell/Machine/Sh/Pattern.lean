import TinyShell.Machine.Sh.Syntax

/-!
# Patterns

Patterns for file names and other texts: a star for any text, a question mark for any character,
and brackets for one of some characters.
-/

namespace TinyShell.Machine.Sh

/-- A character of a pattern, with whether it is quoted. -/
abbrev Marked := Char × Bool

/-- What can stand between brackets. -/
inductive Member where
  | range (first last : Char)
  | class (name : String)
  deriving Repr, Inhabited

/-- A part of a pattern. -/
inductive PatternPart where
  | exact (c : Char)
  | one
  | many
  | set (negated : Bool) (members : List Member)
  deriving Repr, Inhabited

/-- Whether a character belongs to a named class. -/
def inClass (name : String) (c : Char) : Bool :=
  let n := c.toNat
  match name with
  | "alnum" => c.isAlphanum
  | "alpha" => c.isAlpha
  | "blank" => c = ' ' || c = '\t'
  | "cntrl" => n < 32 || n = 127
  | "digit" => c.isDigit
  | "graph" => 33 ≤ n && n ≤ 126
  | "lower" => c.isLower
  | "print" => 32 ≤ n && n ≤ 126
  | "punct" => 33 ≤ n && n ≤ 126 && !c.isAlphanum
  | "space" => c = ' ' || (9 ≤ n && n ≤ 13)
  | "upper" => c.isUpper
  | "xdigit" => c.isDigit || ('a' ≤ c && c ≤ 'f') || ('A' ≤ c && c ≤ 'F')
  | _ => false

/-- The names of the classes. -/
def classNames : List String :=
  ["alnum", "alpha", "blank", "cntrl", "digit", "graph", "lower", "print", "punct", "space",
    "upper", "xdigit"]

def Member.admits (c : Char) : Member → Bool
  | range first last => first ≤ c && c ≤ last
  | .class name => inClass name c

/-- The class at the start of what is between brackets, with what is left. -/
def classAt? (chars : List Marked) : Option (String × List Marked) :=
  match chars with
  | ('[', false) :: (':', _) :: rest =>
    let name := (rest.takeWhile fun (c, _) => c ≠ ':').map (·.1)
    match rest.drop name.length with
    | (':', _) :: (']', _) :: rest =>
      let name := String.ofList name
      if classNames.contains name then some (name, rest) else none
    | _ => none
  | _ => none

/-- What stands between brackets, with what is left behind them; nothing if they do not close.
`first` while a closing bracket would stand for itself. -/
def membersOf : (count : Nat) → (first : Bool) → List Marked → Option (List Member × List Marked)
  | 0, _, _ => none
  | _, _, [] => none
  | count + 1, first, (c, quoted) :: rest =>
    if c = ']' && !quoted && !first then some ([], rest)
    else
      let followed (member : Member) (rest : List Marked) : Option (List Member × List Marked) :=
        (membersOf count false rest).map fun (members, rest) => (member :: members, rest)
      match classAt? ((c, quoted) :: rest) with
      | some (name, rest) => followed (.class name) rest
      | none =>
        match rest with
        | ('-', false) :: (last, lastQuoted) :: rest' =>
          if last = ']' && !lastQuoted then followed (.range c c) rest
          else followed (.range c last) rest'
        | _ => followed (.range c c) rest

/-- The parts of a pattern. `count` bounds their number. -/
def patternParts : (count : Nat) → List Marked → List PatternPart
  | 0, _ => []
  | _, [] => []
  | count + 1, (c, quoted) :: rest =>
    if quoted then .exact c :: patternParts count rest
    else match c with
      | '*' => .many :: patternParts count rest
      | '?' => .one :: patternParts count rest
      | '\\' =>
        match rest with
        | (d, _) :: rest => .exact d :: patternParts count rest
        | [] => [.exact c]
      | '[' =>
        let (negated, inside) := match rest with
          | ('!', false) :: inside => (true, inside)
          | inside => (false, inside)
        match membersOf (inside.length + 1) true inside with
        | some (members, rest) => .set negated members :: patternParts count rest
        | none => .exact '[' :: patternParts count rest
      | c => .exact c :: patternParts count rest

/-- The pattern of marked characters. -/
def patternOf (chars : List Marked) : List PatternPart := patternParts chars.length chars

/-- Whether a pattern matches a text as a whole. -/
def matchesAll : List PatternPart → List Char → Bool
  | [], chars => chars.isEmpty
  | .many :: parts, [] => matchesAll parts []
  | .many :: parts, c :: chars =>
    matchesAll parts (c :: chars) || matchesAll (.many :: parts) chars
  | .exact d :: parts, c :: chars => c = d && matchesAll parts chars
  | .one :: parts, _ :: chars => matchesAll parts chars
  | .set negated members :: parts, c :: chars =>
    (members.any (·.admits c) != negated) && matchesAll parts chars
  | _ :: _, [] => false
termination_by parts chars => parts.length + chars.length

/-- Whether a marked text is a pattern at all. -/
def isPattern (chars : List Marked) : Bool :=
  (patternOf chars).any fun
    | .exact _ => false
    | _ => true

/-- Whether a pattern names what starts with a dot. -/
def namesDots : List Marked → Bool
  | ('\\', false) :: ('.', _) :: _ => true
  | ('.', _) :: _ => true
  | _ => false

/-- Whether a pattern matches a file name. A dot at the start of the name has to be written out. -/
def matchesName (chars : List Marked) (name : String) : Bool :=
  (!name.startsWith "." || namesDots chars) && matchesAll (patternOf chars) name.toList

/-- The part of a text that patterns are held against: what separates parameters ends it. -/
def firstPart (chars : List Char) : List Char := chars.takeWhile (· ≠ '\x00')

/-- How much of a text the pattern matches at its start: the least that it can, or the most; zero
if it matches nothing. -/
def startLength (pattern : List PatternPart) (most : Bool) (chars : List Char) : Nat :=
  let lengths := if most then (List.range (chars.length + 1)).reverse
    else List.range ((firstPart chars).length + 1)
  (lengths.find? fun length => matchesAll pattern (firstPart (chars.take length))).getD 0

/-- How much of a text is left before what the pattern matches at its end. -/
def lengthBefore (pattern : List PatternPart) (most : Bool) (chars : List Char) : Nat :=
  let lengths := if most then List.range ((firstPart chars).length + 1)
    else (List.range (chars.length + 1)).reverse
  (lengths.find? fun length => matchesAll pattern (firstPart (chars.drop length))).getD chars.length

end TinyShell.Machine.Sh
