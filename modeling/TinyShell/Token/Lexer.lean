import TinyShell.Token.Basic

/-!
# Lexer

A line is gaps, symbols and words. Five characters are gaps; five are symbols, of which `>>` is
one token; every run of other characters is a word. So every line has tokens, and concatenating
their texts gives the line without its gaps.
-/

namespace TinyShell.Token

/-- The characters that only separate: space, tab, carriage return, newline, vertical tab. -/
def isGap (c : Char) : Bool :=
  c = ' ' || c = '\t' || c = '\r' || c = '\n' || c = '\x0b'

/-- The characters that are tokens by themselves. -/
def isSymbol (c : Char) : Bool :=
  c = '<' || c = '|' || c = '>' || c = '&' || c = ';'

/-- The characters words are made of: all that are neither gaps nor symbols. -/
def isWordChar (c : Char) : Bool := !isGap c && !isSymbol c

theorem length_dropWhile_le (p : Char → Bool) (cs : List Char) :
    (cs.dropWhile p).length ≤ cs.length := by
  induction cs with
  | nil => simp
  | cons c cs ih =>
    rw [List.dropWhile_cons]
    split
    · exact Nat.le_succ_of_le ih
    · exact Nat.le_refl _

/-- All tokens of a line. `>>` is tried before `>`, and a word takes all characters that it can. -/
def lex : List Char → List Token
  | [] => []
  | '>' :: '>' :: rest => symbol .redirAppend :: lex rest
  | c :: rest =>
    if isGap c then
      lex rest
    else if isSymbol c then
      symbol (.ofSymbol c) :: lex rest
    else
      word (String.ofList (c :: rest.takeWhile isWordChar)) :: lex (rest.dropWhile isWordChar)
termination_by cs => cs.length
decreasing_by
  all_goals simp only [List.length_cons]
  all_goals first | omega | exact Nat.lt_succ_of_le (length_dropWhile_le _ _)

end TinyShell.Token

namespace TinyShell.TokenList

/-- The first `maxTokens` tokens of a line, marked if there were more. -/
def ofLine (line : String) : TokenList :=
  let tokens := Token.lex line.toList
  ⟨tokens.take maxTokens, maxTokens < tokens.length⟩

end TinyShell.TokenList
