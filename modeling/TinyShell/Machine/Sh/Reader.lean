import TinyShell.Machine.Sh.Syntax

/-!
# Reading scripts

The characters of a script and the state that tokens depend on: the line, the aliases whose values
are being read, and the documents that are still to come behind the line.
-/

namespace TinyShell.Machine.Sh

/-- A word with a meaning where a command can start. -/
inductive Keyword where
  | bang | openBrace | caseWord | doWord | doneWord | elifWord | elseWord | closeBrace | esacWord
  | fiWord | forWord | ifWord | inWord | thenWord | untilWord | whileWord
  deriving DecidableEq, Repr, Inhabited

namespace Keyword

def all : List Keyword :=
  [bang, openBrace, caseWord, doWord, doneWord, elifWord, elseWord, closeBrace, esacWord, fiWord,
    forWord, ifWord, inWord, thenWord, untilWord, whileWord]

def text : Keyword → String
  | bang => "!"
  | openBrace => "\x7b"
  | caseWord => "case"
  | doWord => "do"
  | doneWord => "done"
  | elifWord => "elif"
  | elseWord => "else"
  | closeBrace => "\x7d"
  | esacWord => "esac"
  | fiWord => "fi"
  | forWord => "for"
  | ifWord => "if"
  | inWord => "in"
  | thenWord => "then"
  | untilWord => "until"
  | whileWord => "while"

/-- Whether the keyword ends a list of commands. -/
def closes : Keyword → Bool
  | doWord | doneWord | elifWord | elseWord | closeBrace | esacWord | fiWord | thenWord => true
  | _ => false

def ofText? (text : String) : Option Keyword := all.find? (·.text = text)

end Keyword

/-- A token of a script. -/
inductive Token where
  | finish
  | newline
  | semicolon
  | ampersand
  | andIf
  | orIf
  | bar
  | openParen
  | closeParen
  | endCase
  | redirect (fd : Nat) (kind : RedirectKind) (stripsTabs : Bool)
  | word (word : Word)
  | keyword (keyword : Keyword)
  deriving Inhabited

namespace Token

/-- The token as messages name it. -/
def name : Token → String
  | finish => "end of file"
  | newline => "newline"
  | semicolon => "\";\""
  | ampersand => "\"&\""
  | andIf => "\"&&\""
  | orIf => "\"||\""
  | bar => "\"|\""
  | openParen => "\"(\""
  | closeParen => "\")\""
  | endCase => "\";;\""
  | redirect .. => "redirection"
  | word _ => "word"
  | keyword k => "\"" ++ k.text ++ "\""

/-- Whether the token ends a list of commands. -/
def closes : Token → Bool
  | finish | closeParen | endCase => true
  | keyword k => k.closes
  | _ => false

end Token

/-- What the next token can be. -/
structure Expecting where
  aliases : Bool := false
  keywords : Bool := false
  /-- Newlines before the token are passed over. -/
  newlines : Bool := false
  /-- The word ends a document, and nothing in it stands for anything else. -/
  marker : Bool := false
  deriving Inhabited

namespace Expecting

def nothing : Expecting := {}

/-- A command on the same line. -/
def command : Expecting := { aliases := true, keywords := true }

/-- A command, on this line or on another. -/
def anywhere : Expecting := { aliases := true, keywords := true, newlines := true }

end Expecting

/-- A document that has been announced. -/
structure Announced where
  index : Nat
  marker : String
  stripsTabs : Bool
  quoted : Bool
  deriving Inhabited

/-- Why a script cannot be read. -/
inductive Trouble where
  /-- More has to be known of the script. -/
  | more
  /-- The script is no script; so many of its characters have not been looked at. -/
  | wrong (line left : Nat) (message : String)
  deriving Inhabited

/-- A script that is being read. -/
structure Reader where
  chars : List Char
  line : Nat
  /-- Whether nothing follows the characters. -/
  final : Bool
  aliases : List (String × String) := []
  /-- The values of aliases that stand before the characters, each with the name. -/
  frames : List (String × String × List Char) := []
  expecting : Expecting := {}
  last : Token := .finish
  /-- Whether the last token is to be read again. -/
  again : Bool := false
  announced : List Announced := []
  /-- The documents so far. -/
  documents : List (Nat × Word) := []
  count : Nat := 0
  deriving Inhabited

/-- A step of reading. -/
abbrev Reading := StateT Reader (Except Trouble)

namespace Reading

/-- The script is no script. -/
def wrong {α : Type} (message : String) : Reading α := do
  let reader ← get
  throw (.wrong reader.line reader.chars.length ("Syntax error: " ++ message))

/-! ## Characters -/

/-- Whether the value of an alias makes the word behind it an alias too. -/
def opensNext (value : String) : Bool :=
  match value.toList.getLast? with
  | some c => c = ' ' || c = '\t'
  | none => false

/-- The frames without those that are used up at the top. -/
def dropFrames (reader : Reader) : List (String × String × List Char) → Reader
  | (_, value, []) :: rest =>
    let reader := if opensNext value
      then { reader with expecting := { reader.expecting with aliases := true } } else reader
    dropFrames reader rest
  | frames => { reader with frames }

/-- The next character; nothing at the end. -/
def next : Reading (Option Char) := do
  let reader := dropFrames (← get) (← get).frames
  match reader.frames with
  | (name, value, c :: rest) :: frames =>
    set { reader with frames := (name, value, rest) :: frames }
    return some c
  | _ =>
    match reader.chars with
    | c :: chars =>
      set { reader with chars }
      return some c
    | [] =>
      set reader
      if reader.final then return none else throw .more

/-- A character that is to be read again. -/
def back (c : Option Char) : Reading Unit :=
  match c with
  | none => return ()
  | some c => modify fun reader =>
    match reader.frames with
    | (name, value, rest) :: frames => { reader with frames := (name, value, c :: rest) :: frames }
    | [] => { reader with chars := c :: reader.chars }

def nextLine : Reading Unit := modify fun reader => { reader with line := reader.line + 1 }

/-- The next character, where a backslash before a newline joins lines. `fuel` bounds their
number. -/
def nextJoined : (fuel : Nat) → Reading (Option Char)
  | 0 => next
  | fuel + 1 => do
    match ← next with
    | some '\\' =>
      match ← next with
      | some '\n' =>
        nextLine
        nextJoined fuel
      | c =>
        back c
        return some '\\'
    | c => return c

/-- The characters of a name, `c` being the first that may belong to it; the character behind the
name is returned with it. -/
def nameChars (test : Char → Bool) : (fuel : Nat) → (c : Option Char) → List Char →
    Reading (String × Option Char)
  | 0, c, acc => return (String.ofList acc.reverse, c)
  | fuel + 1, c, acc =>
    match c with
    | some d =>
      if test d then do
        nameChars test fuel (← nextJoined fuel) (d :: acc)
      else return (String.ofList acc.reverse, c)
    | none => return (String.ofList acc.reverse, none)

/-- A token that is to be read again. -/
def pushBack : Reading Unit := modify fun reader => { reader with again := true }

def expect (expecting : Expecting) : Reading Unit := modify fun reader => { reader with expecting }

end Reading

end TinyShell.Machine.Sh
