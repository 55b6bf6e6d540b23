import TinyShell.Text.Utf8

/-!
# The command language

Scripts as trees. All text of a script is bytes, and each byte is kept as the character of that
number; `fromText` and `toText` lead between such text and text of the outside.

This is the language of the script tool, a program outside the shell: `tsh` itself reads lines with
`Token.lex` and `Command.parse` and knows nothing of it. Nothing is proved about scripts.
-/

namespace TinyShell.Machine.Sh

open Text (Bytes)

/-! ## Text -/

/-- Bytes as characters of their numbers. -/
def fromBytes (bytes : Bytes) : String := String.ofList (bytes.map fun b => Char.ofNat b.toNat)

/-- The bytes that characters stand for. -/
def toBytes (text : String) : Bytes := text.toList.map fun c => UInt8.ofNat c.toNat

def fromText (text : String) : String := fromBytes (Text.encode text)

def toText (text : String) : String := Text.decode (toBytes text)

/-! ## Words -/

/-- What is made of a parameter. -/
inductive Form where
  | plain
  | length
  /-- A word in place of a parameter that is not set, or is empty if `empty` says so. -/
  | orElse (empty : Bool)
  | orAssign (empty : Bool)
  | orFail (empty : Bool)
  /-- A word in place of a parameter that is set. -/
  | ifSet (empty : Bool)
  /-- The parameter without what a pattern matches at an end, as little or as much as it can. -/
  | trimLeft (most : Bool)
  | trimRight (most : Bool)
  | wrong
  deriving DecidableEq, Repr, Inhabited

/-- What a redirection does. -/
inductive RedirectKind where
  | read
  | write
  /-- Over a file even if files are to be spared. -/
  | clobber
  | append
  | readWrite
  | copyIn
  | copyOut
  /-- The text that follows the command: the number of it, and whether parameters in it count. -/
  | document (index : Nat)
  deriving DecidableEq, Repr, Inhabited

mutual

/-- A piece of a word. -/
inductive Piece where
  | char (c : Char) (quoted : Bool)
  /-- A quote that opens or closes: there is a word even if there is nothing in it. -/
  | quote
  | parameter (name : String) (form : Form) (word : List Piece) (quoted : Bool)
  | command (body : Command) (quoted : Bool)
  | arithmetic (word : List Piece) (quoted : Bool)

/-- A command. The numbers are those of lines. -/
inductive Command where
  | nothing
  | simple (line : Nat) (assignments : List (List Piece)) (words : List (List Piece))
      (redirects : List Redirect)
  | pipeline (background : Bool) (stages : List Command)
  | background (line : Nat) (body : Command) (redirects : List Redirect)
  | subshell (line : Nat) (body : Command) (redirects : List Redirect)
  | redirected (line : Nat) (body : Command) (redirects : List Redirect)
  | sequence (first second : Command)
  | and (first second : Command)
  | or (first second : Command)
  | not (body : Command)
  | branch (test yes no : Command)
  | loop (negated : Bool) (test body : Command)
  | each (line : Nat) (name : String) (words : List (List Piece)) (body : Command)
  | select (line : Nat) (word : List Piece) (cases : List Case)
  | function (line : Nat) (name : String) (body : Command)

/-- A redirection of a descriptor. -/
inductive Redirect where
  | mk (fd : Nat) (kind : RedirectKind) (word : List Piece)

/-- Patterns with what is done if one of them matches. -/
inductive Case where
  | mk (patterns : List (List Piece)) (body : Command)

end

/-- A word of a script. -/
abbrev Word := List Piece

instance : Inhabited Piece := ⟨.quote⟩

instance : Inhabited Command := ⟨.nothing⟩

/-- The text of a word in which nothing is quoted and nothing stands for anything else. -/
def plainText? : Word → Option String
  | [] => some ""
  | .char c false :: rest => (plainText? rest).map fun text => c.toString ++ text
  | _ => none

/-- Whether a word holds quotes or quoted characters of any kind. -/
def isQuoted (word : Word) : Bool :=
  word.any fun
    | .char _ quoted => quoted
    | .quote => true
    | _ => false

/-! ## Names -/

def isNameStart (c : Char) : Bool := c.isAlpha || c = '_'

def isNameChar (c : Char) : Bool := c.isAlphanum || c = '_'

/-- Whether a text is the name of a variable. -/
def isName (text : String) : Bool :=
  match text.toList with
  | [] => false
  | c :: rest => isNameStart c && rest.all isNameChar

/-- The parameters that are named by a mark. -/
def isSpecial (c : Char) : Bool := "!#$*-?@".contains c || c.isDigit

/-- The length of the name that a word starts with, if an equals sign follows it. -/
def assignmentLength? (word : Word) : Option Nat :=
  let isPlain : Piece → Bool
    | .char c quoted => !quoted && isNameChar c
    | _ => false
  let name := word.takeWhile isPlain
  match name, word.drop name.length with
  | .char c _ :: _, .char '=' false :: _ => if isNameStart c then some name.length else none
  | _, _ => none

end TinyShell.Machine.Sh
