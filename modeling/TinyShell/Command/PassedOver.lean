import TinyShell.Command.Parser

/-!
# Tokens without a place

The symbols that the parser meets where a redirection or `&` could stand, and passes over. Each has
a line for the journal. What the parser does not look at is not listed: the rest of a stage that
ended, and all after a part over a limit.

A line of text has none of them; only tokens that were put together in another way do.
-/

namespace TinyShell

/-- The line for the journal about a token of this kind that was passed over. -/
def TokenKind.passedOverNote (kind : TokenKind) : String :=
  "parse: unexpected token " ++ kind.name

/-- The kinds passed over in the tail of a stage, up to where it ends. -/
def SimpleCommand.passedOverTail : List Token → List TokenKind
  | [] => []
  | token :: rest =>
    match token.kind with
    | .background => passedOverTail rest
    | .word => []
    | kind =>
      match kind.redirection? with
      | none => kind :: passedOverTail rest
      | some _ =>
        match rest with
        | [] => []
        | destination :: rest => if destination.isWord then passedOverTail rest else []

/-- The kinds passed over in a stage. -/
def SimpleCommand.passedOver (tokens : List Token) : List TokenKind :=
  if (tokens.takeWhile Token.isWord).length ≤ maxArgs then
    passedOverTail (tokens.dropWhile Token.isWord)
  else
    []

namespace Command

/-- The kinds passed over in a part, after `used` stages of the line. -/
def passedOverPart (used : Nat) (part : List Token) : List TokenKind :=
  let stages := Token.sections .pipe part
  if maxCommands < used + stages.length then [] else stages.flatMap SimpleCommand.passedOver

/-- The kinds passed over in the parts of a line. -/
def passedOverParts (used : Nat) : List (List Token) → List TokenKind
  | [] => []
  | part :: parts =>
    let (command, next) := ofPart used part
    passedOverPart used part ++
      if command.faults.overCapacity then [] else passedOverParts next parts

/-- The kinds passed over in tokens without `;`. -/
def passedOverPipeline (tokens : List Token) : List TokenKind := passedOverPart 0 tokens

/-- The kinds passed over in a whole line. -/
def passedOver (list : TokenList) : List TokenKind :=
  if list.truncated then [] else passedOverParts 0 (Token.sections .list list.tokens)

end Command

end TinyShell
