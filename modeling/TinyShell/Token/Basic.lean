import TinyShell.Limits
import TinyShell.Text.Lines

/-!
# Tokens

What a line is made of: words, and the symbols that join and redirect commands. Only words carry
text; a symbol is its kind.
-/

namespace TinyShell

/-- The kinds of token. The group symbols and `invalid` have a place here, but not on a line. -/
inductive TokenKind where
  | word
  | pipe
  | list
  | redirOut
  | redirAppend
  | redirIn
  | background
  | groupStart
  | groupEnd
  | invalid
  deriving DecidableEq, Repr, Inhabited

namespace TokenKind

/-- The kind as dumps name it. -/
def name : TokenKind → String
  | word => "Word"
  | pipe => "Pipe"
  | list => "List"
  | redirOut => "RedirOut"
  | redirAppend => "RedirOutAppend"
  | redirIn => "RedirIn"
  | background => "Background"
  | groupStart => "GroupStart"
  | groupEnd => "GroupEnd"
  | invalid => "Invalid"

/-- The text of a symbol on a line; a word has none of its own. -/
def symbol : TokenKind → String
  | word => ""
  | pipe => "|"
  | list => ";"
  | redirOut => ">"
  | redirAppend => ">>"
  | redirIn => "<"
  | background => "&"
  | groupStart => "("
  | groupEnd => ")"
  | invalid => "?"

/-- The kind that a symbol character stands for; `invalid` for any other character. -/
def ofSymbol : Char → TokenKind
  | '<' => redirIn
  | '>' => redirOut
  | '|' => pipe
  | '&' => background
  | ';' => list
  | _ => invalid

end TokenKind

/-- A token: its kind, and the text of a word. -/
structure Token where
  kind : TokenKind
  value : String
  deriving DecidableEq, Repr, Inhabited

namespace Token

/-- The word with this text. -/
def word (value : String) : Token := ⟨.word, value⟩

/-- The symbol of this kind. -/
def symbol (kind : TokenKind) : Token := ⟨kind, ""⟩

def isWord (token : Token) : Bool := token.kind = .word

/-- One line of a dump: a word with its text and length in bytes, or the kind of a symbol. -/
def dumpLine (index : Nat) (token : Token) : String :=
  let head := "\tToken[" ++ toString index ++ "]: " ++ token.kind.name
  if token.isWord then
    head ++ " value=" ++ token.value ++ " len=" ++ toString token.value.utf8ByteSize
  else
    head

end Token

/-- The tokens of a line, and whether more than `maxTokens` stood on it. -/
structure TokenList where
  tokens : List Token
  truncated : Bool
  deriving DecidableEq, Repr, Inhabited

namespace TokenList

def empty : TokenList := ⟨[], false⟩

def length (list : TokenList) : Nat := list.tokens.length

def isEmpty (list : TokenList) : Bool := list.tokens.isEmpty

def kinds (list : TokenList) : List TokenKind := list.tokens.map Token.kind

/-- The lines of a dump: a heading, one line for each token, and a note if some were dropped. -/
def dumpLines (list : TokenList) : List String :=
  "Tokens" :: list.tokens.mapIdx Token.dumpLine ++
    if list.truncated then ["\t(truncated at " ++ toString maxTokens ++ ")"] else []

/-- The dump that goes to the journal. -/
def dump (list : TokenList) : String := Text.unlines list.dumpLines

end TokenList

end TinyShell
