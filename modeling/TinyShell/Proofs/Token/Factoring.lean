import Mathlib.Data.List.Chain
import Mathlib.Data.List.TakeWhile
import TinyShell.Token.Lexer

/-!
# Lines as gaps and lexemes

`TokenList.ofLine_factoring`: every line is a gap, a lexeme, a gap, and so on to a last gap, in
exactly one way, and its tokens are those lexemes in their order. So the lexer loses nothing but
gaps, and takes as much as it can each time.

* `Token.lex_gap`, `Token.lex_symbol`, `Token.lex_word`: what the lexer does with each kind of text,
  if what follows does not belong to it.
* `Token.lex_append`: no token reaches across a character that can only start one, so texts around
  such a character are read apart.
* `Factoring.exists_chars_eq`, `Factoring.lex_chars`, `Factoring.eq_of_chars_eq`: there is a
  factoring, the lexer finds its lexemes, and they leave no choice for the gaps.
-/

namespace TinyShell

namespace Token

/-! ## Reading from the left -/

/-- Nothing of the text can go on a word. -/
def EndsWord (rest : List Char) : Prop := ∀ c ∈ rest.head?, isWordChar c = false

theorem eq_of_isSymbol {c : Char} (h : isSymbol c) :
    c = '<' ∨ c = '|' ∨ c = '>' ∨ c = '&' ∨ c = ';' := by
  simpa [isSymbol, or_assoc] using h

theorem isGap_of_isSymbol {c : Char} (h : isSymbol c) : isGap c = false := by
  rcases eq_of_isSymbol h with rfl | rfl | rfl | rfl | rfl <;> rfl

theorem lex_gap {c : Char} (h : isGap c) (rest : List Char) : lex (c :: rest) = lex rest := by
  rw [lex, if_pos h]
  rintro _ rfl -
  cases h

/-- A symbol, unless it is the first half of another one. -/
theorem lex_symbol {c : Char} (h : isSymbol c) {rest : List Char}
    (hr : c = '>' → rest.head? ≠ some '>') :
    lex (c :: rest) = symbol (.ofSymbol c) :: lex rest := by
  rw [lex, if_neg (by simp [isGap_of_isSymbol h]), if_pos h]
  rintro _ rfl rfl
  exact hr rfl rfl

theorem isWordChar_iff {c : Char} : isWordChar c ↔ isGap c = false ∧ isSymbol c = false := by
  simp [isWordChar]

theorem lex_word {c : Char} {cs rest : List Char} (h : ∀ d ∈ c :: cs, isWordChar d)
    (hr : EndsWord rest) :
    lex (c :: cs ++ rest) = word (String.ofList (c :: cs)) :: lex rest := by
  obtain ⟨hgap, hsymbol⟩ := isWordChar_iff.1 (h c List.mem_cons_self)
  have hcs : ∀ d ∈ cs, isWordChar d := fun d hd => h d (List.mem_cons_of_mem c hd)
  have htake : rest.takeWhile isWordChar = [] := by
    rcases rest with _ | ⟨d, rest⟩
    · rfl
    · simp [hr d rfl]
  have hdrop : rest.dropWhile isWordChar = rest := by
    rcases rest with _ | ⟨d, rest⟩
    · rfl
    · simp [hr d rfl]
  rw [List.cons_append, lex, if_neg (by simp [hgap]), if_neg (by simp [hsymbol]),
    List.takeWhile_append_of_pos hcs, List.dropWhile_append_of_pos hcs, htake, hdrop,
    List.append_nil]
  rintro _ rfl -
  cases hsymbol

/-- What is left behind a word does not go on with it. -/
theorem endsWord_dropWhile (cs : List Char) : EndsWord (cs.dropWhile isWordChar) := by
  intro c hc
  have := List.head?_dropWhile_not isWordChar cs
  rw [Option.mem_def.1 hc] at this
  exact this

/-- Texts on both sides of a character that neither goes on a word nor makes `>>` are read apart. -/
theorem lex_append (before : List Char) {c : Char} (hw : isWordChar c = false) (hc : c ≠ '>')
    (rest : List Char) : lex (before ++ c :: rest) = lex before ++ lex (c :: rest) := by
  fun_induction lex before with
  | case1 => rfl
  | case2 before ih => simp [lex, ih]
  | case3 d before _ hgap ih => rw [List.cons_append, lex_gap hgap, ih]
  | case4 d before hne _ hsymbol ih =>
    rw [List.cons_append, lex_symbol hsymbol, ih, List.cons_append]
    rintro rfl hhead
    rcases before with _ | ⟨e, before⟩
    · exact hc (by simpa using hhead)
    · obtain rfl : e = '>' := by simpa using hhead
      exact hne before rfl rfl
  | case5 d before _ hgap hsymbol ih =>
    have hd : isWordChar d := isWordChar_iff.2 ⟨by simpa using hgap, by simpa using hsymbol⟩
    have htake : ∀ e ∈ d :: before.takeWhile isWordChar, isWordChar e := by
      intro e he
      rcases List.mem_cons.1 he with rfl | he
      · exact hd
      · exact List.mem_takeWhile_imp he
    have hends : EndsWord (before.dropWhile isWordChar ++ c :: rest) := by
      intro e he
      rcases hdrop : before.dropWhile isWordChar with _ | ⟨first, others⟩
      · obtain rfl : c = e := by simpa [hdrop] using he
        exact hw
      · refine endsWord_dropWhile before e ?_
        simpa [hdrop] using he
    have hsplit : d :: before ++ c :: rest = d :: before.takeWhile isWordChar ++
        (before.dropWhile isWordChar ++ c :: rest) := by
      rw [List.cons_append, List.cons_append, ← List.append_assoc,
        List.takeWhile_append_dropWhile]
    rw [hsplit, lex_word htake hends, ih, List.cons_append]

/-- The text of a token on a line. -/
def text (token : Token) : String := if token.isWord then token.value else token.kind.symbol

end Token

open Token (isGap isSymbol isWordChar lex EndsWord)

/-! ## Factorings -/

/-- A piece of a line that is a token. -/
inductive Lexeme where
  /-- The symbol `>>`. -/
  | append
  | symbol (c : Char) (isSymbol : Token.isSymbol c)
  | word (first : Char) (others : List Char) (isWord : ∀ c ∈ first :: others, Token.isWordChar c)

namespace Lexeme

def chars : Lexeme → List Char
  | append => ['>', '>']
  | symbol c _ => [c]
  | word first others _ => first :: others

/-- The token that it is: a word with its exact text, or a symbol of its kind. -/
def token : Lexeme → Token
  | append => .symbol .redirAppend
  | symbol c _ => .symbol (.ofSymbol c)
  | word first others _ => .word (String.ofList (first :: others))

/-- Without a gap between them, the two are not read as these two. -/
def Clings : Lexeme → Lexeme → Prop
  | word .., word .. => True
  | symbol c _, append => c = '>'
  | symbol c _, symbol d _ => c = '>' ∧ d = '>'
  | _, _ => False

end Lexeme

/-- A run of characters that only separate. -/
abbrev Gap := { cs : List Char // ∀ c ∈ cs, Token.isGap c }

/-- A line as a gap, and lexemes with the gaps behind them. -/
structure Factoring where
  first : Gap
  pieces : List (Lexeme × Gap)
  apart : pieces.IsChain fun piece next => piece.1.Clings next.1 → piece.2.1 ≠ []

namespace Factoring

/-- The characters of the pieces. -/
def spelled (pieces : List (Lexeme × Gap)) : List Char :=
  pieces.flatMap fun piece => piece.1.chars ++ piece.2.1

/-- The characters of the line. -/
def chars (factoring : Factoring) : List Char := factoring.first.1 ++ spelled factoring.pieces

/-- The tokens of the line. -/
def tokens (factoring : Factoring) : List Token := factoring.pieces.map fun piece => piece.1.token

@[simp]
theorem spelled_nil : spelled [] = [] := rfl

@[simp]
theorem spelled_cons (piece : Lexeme × Gap) (rest : List (Lexeme × Gap)) :
    spelled (piece :: rest) = piece.1.chars ++ (piece.2.1 ++ spelled rest) := by
  simp [spelled]

end Factoring

/-! ## The lexer finds the lexemes -/

namespace Lexeme

/-- What follows a lexeme does not belong to it. -/
def Ends (rest : List Char) : Lexeme → Prop
  | append => True
  | symbol c _ => c = '>' → rest.head? ≠ some '>'
  | word .. => EndsWord rest

theorem lex_chars {lexeme : Lexeme} {rest : List Char} (h : lexeme.Ends rest) :
    lex (lexeme.chars ++ rest) = lexeme.token :: lex rest := by
  cases lexeme with
  | append => exact Token.lex.eq_2 rest
  | symbol c hc => exact Token.lex_symbol hc h
  | word first others hw => exact Token.lex_word hw h

theorem isGap_of_mem {lexeme : Lexeme} {c : Char} (h : c ∈ lexeme.chars) : isGap c = false := by
  cases lexeme with
  | append =>
    obtain rfl : c = '>' := by simpa [chars] using h
    rfl
  | symbol d hd =>
    obtain rfl : c = d := by simpa [chars] using h
    exact Token.isGap_of_isSymbol hd
  | word first others hw => exact (Token.isWordChar_iff.1 (hw c h)).1

theorem chars_ne_nil (lexeme : Lexeme) : lexeme.chars ≠ [] := by
  cases lexeme <;> simp [chars]

theorem ends_nil (lexeme : Lexeme) : lexeme.Ends [] := by
  cases lexeme <;> simp [Ends, EndsWord]

theorem ends_gap (lexeme : Lexeme) {c : Char} (hc : isGap c) (rest : List Char) :
    lexeme.Ends (c :: rest) := by
  cases lexeme with
  | append => trivial
  | symbol d hd =>
    rintro - hhead
    obtain rfl : c = '>' := by simpa using hhead
    cases hc
  | word first others hw =>
    intro d hd
    obtain rfl : c = d := by simpa using hd
    simp [isWordChar, hc]

/-- Right before another lexeme, one has its end if it does not cling. -/
theorem ends_chars_append (lexeme next : Lexeme) (rest : List Char) :
    lexeme.Ends (next.chars ++ rest) ↔ ¬lexeme.Clings next := by
  cases lexeme with
  | append => cases next <;> simp [Ends, Clings]
  | symbol c hc =>
    cases next with
    | append => simp [Ends, Clings, chars]
    | symbol d hd => simp [Ends, Clings, chars]
    | word first others hw =>
      refine iff_of_true (fun _ hhead => ?_) id
      obtain rfl : first = '>' := by simpa [chars] using hhead
      exact absurd (hw '>' List.mem_cons_self) (by decide)
  | word first others hw =>
    cases next with
    | append => exact iff_of_true (by simp [Ends, EndsWord, chars]; decide) id
    | symbol d hd => exact iff_of_true (by simp [Ends, EndsWord, chars, isWordChar, hd]) id
    | word first' others' hw' =>
      refine iff_of_false (fun h => ?_) (not_not_intro trivial)
      have hfirst := h first' (by simp [chars])
      rw [hw' first' List.mem_cons_self] at hfirst
      cases hfirst

/-- A lexeme has its end before a gap, or before one that it does not cling to. -/
theorem ends_iff_apart (lexeme : Lexeme) (gap : Gap) (pieces : List (Lexeme × Gap)) :
    lexeme.Ends (gap.1 ++ Factoring.spelled pieces) ↔
      ∀ next ∈ pieces.head?, lexeme.Clings next.1 → gap.1 ≠ [] := by
  obtain ⟨_ | ⟨c, cs⟩, hgap⟩ := gap
  · rcases pieces with _ | ⟨⟨next, after⟩, pieces⟩
    · exact iff_of_true lexeme.ends_nil (by simp)
    · rw [List.nil_append, Factoring.spelled_cons, ends_chars_append]
      simp
  · exact iff_of_true (lexeme.ends_gap (hgap c List.mem_cons_self) _) (by simp)

/-- Lexemes are told apart by their tokens. -/
theorem token_injective {lexeme other : Lexeme} (h : lexeme.token = other.token) :
    lexeme = other := by
  have hkind : ∀ {c}, isSymbol c → TokenKind.ofSymbol c ≠ .word ∧
      TokenKind.ofSymbol c ≠ .redirAppend := by
    intro c hc
    rcases Token.eq_of_isSymbol hc with rfl | rfl | rfl | rfl | rfl <;> decide
  have hsymbol : ∀ {c d}, isSymbol c → isSymbol d →
      TokenKind.ofSymbol c = TokenKind.ofSymbol d → c = d := by
    intro c d hc hd
    rcases Token.eq_of_isSymbol hc with rfl | rfl | rfl | rfl | rfl <;>
      rcases Token.eq_of_isSymbol hd with rfl | rfl | rfl | rfl | rfl <;> decide
  cases lexeme with
  | append =>
    cases other with
    | append => rfl
    | symbol d hd => exact absurd (congrArg Token.kind h).symm (hkind hd).2
    | word => cases congrArg Token.kind h
  | symbol c hc =>
    cases other with
    | append => exact absurd (congrArg Token.kind h) (hkind hc).2
    | symbol d hd =>
      obtain rfl := hsymbol hc hd (congrArg Token.kind h)
      rfl
    | word => exact absurd (congrArg Token.kind h) (hkind hc).1
  | word first others hw =>
    cases other with
    | append => cases congrArg Token.kind h
    | symbol d hd => exact absurd (congrArg Token.kind h).symm (hkind hd).1
    | word first' others' hw' =>
      have hlist : first :: others = first' :: others' :=
        String.ofList_injective (congrArg Token.value h)
      cases hlist
      rfl

end Lexeme

namespace Factoring

theorem lex_gaps (gap : Gap) (rest : List Char) : lex (gap.1 ++ rest) = lex rest := by
  obtain ⟨cs, hgap⟩ := gap
  induction cs with
  | nil => rfl
  | cons c cs ih =>
    obtain ⟨hc, hcs⟩ := List.forall_mem_cons.1 hgap
    rw [List.cons_append, Token.lex_gap hc]
    exact ih hcs

theorem lex_spelled {pieces : List (Lexeme × Gap)}
    (h : pieces.IsChain fun piece next => piece.1.Clings next.1 → piece.2.1 ≠ []) :
    lex (spelled pieces) = pieces.map fun piece => piece.1.token := by
  induction pieces with
  | nil => exact Token.lex.eq_1
  | cons piece rest ih =>
    obtain ⟨hpiece, hrest⟩ := List.isChain_cons.1 h
    have hends := (piece.1.ends_iff_apart piece.2 rest).2 hpiece
    rw [spelled_cons, Lexeme.lex_chars hends, lex_gaps, ih hrest, List.map_cons]

/-- The tokens of a line are the lexemes of its factoring. -/
theorem lex_chars (factoring : Factoring) : lex factoring.chars = factoring.tokens := by
  rw [chars, lex_gaps, lex_spelled factoring.apart, tokens]

/-! ## There is a factoring -/

/-- A factoring with one more character in its first gap. -/
def widen (c : Char) (h : isGap c) (factoring : Factoring) : Factoring :=
  { factoring with
    first := ⟨c :: factoring.first.1, List.forall_mem_cons.2 ⟨h, factoring.first.2⟩⟩ }

/-- A factoring behind one more lexeme. -/
def behind (lexeme : Lexeme) (factoring : Factoring) (h : lexeme.Ends factoring.chars) :
    Factoring where
  first := ⟨[], by simp⟩
  pieces := (lexeme, factoring.first) :: factoring.pieces
  apart := List.isChain_cons.2 ⟨(lexeme.ends_iff_apart _ _).1 h, factoring.apart⟩

@[simp]
theorem chars_widen (c : Char) (h : isGap c) (factoring : Factoring) :
    (factoring.widen c h).chars = c :: factoring.chars := rfl

@[simp]
theorem chars_behind (lexeme : Lexeme) (factoring : Factoring)
    (h : lexeme.Ends factoring.chars) :
    (behind lexeme factoring h).chars = lexeme.chars ++ factoring.chars := by
  simp [behind, chars]

theorem exists_chars_eq (cs : List Char) : ∃ factoring : Factoring, factoring.chars = cs := by
  fun_induction lex cs with
  | case1 => exact ⟨⟨⟨[], by simp⟩, [], .nil⟩, rfl⟩
  | case2 rest ih =>
    obtain ⟨factoring, rfl⟩ := ih
    exact ⟨behind .append factoring trivial, chars_behind ..⟩
  | case3 c rest _ hgap ih =>
    obtain ⟨factoring, rfl⟩ := ih
    exact ⟨factoring.widen c hgap, rfl⟩
  | case4 c rest hne _ hsymbol ih =>
    obtain ⟨factoring, rfl⟩ := ih
    have hends : (Lexeme.symbol c hsymbol).Ends factoring.chars := by
      rintro rfl hhead
      obtain ⟨others, ho⟩ := List.head?_eq_some_iff.1 hhead
      exact hne others rfl ho
    exact ⟨behind _ factoring hends, chars_behind ..⟩
  | case5 c rest _ hgap hsymbol ih =>
    obtain ⟨factoring, hf⟩ := ih
    have hc : isWordChar c := Token.isWordChar_iff.2 ⟨by simpa using hgap, by simpa using hsymbol⟩
    have hword : ∀ d ∈ c :: rest.takeWhile isWordChar, isWordChar d :=
      List.forall_mem_cons.2 ⟨hc, fun d hd => List.mem_takeWhile_imp hd⟩
    have hends : (Lexeme.word c _ hword).Ends factoring.chars := by
      rw [hf]
      exact Token.endsWord_dropWhile rest
    refine ⟨behind _ factoring hends, ?_⟩
    rw [chars_behind, hf, Lexeme.chars, List.cons_append, List.takeWhile_append_dropWhile]

/-! ## There is only one -/

/-- Lexemes do not start with gaps. -/
theorem dropWhile_isGap_spelled (pieces : List (Lexeme × Gap)) :
    (spelled pieces).dropWhile isGap = spelled pieces := by
  rcases pieces with _ | ⟨piece, rest⟩
  · rfl
  · obtain ⟨c, cs, hc⟩ := List.exists_cons_of_ne_nil piece.1.chars_ne_nil
    have hgap : isGap c = false := Lexeme.isGap_of_mem (hc ▸ List.mem_cons_self)
    simp [hc, hgap]

/-- A gap ends where the lexemes start. -/
theorem gap_spelled_inj {gap gap' : Gap} {pieces pieces' : List (Lexeme × Gap)}
    (h : gap.1 ++ spelled pieces = gap'.1 ++ spelled pieces') :
    gap = gap' ∧ spelled pieces = spelled pieces' := by
  have hspelled : spelled pieces = spelled pieces' := by
    have := congrArg (List.dropWhile isGap) h
    rwa [List.dropWhile_append_of_pos gap.2, List.dropWhile_append_of_pos gap'.2,
      dropWhile_isGap_spelled, dropWhile_isGap_spelled] at this
  rw [hspelled] at h
  exact ⟨Subtype.ext (List.append_cancel_right h), hspelled⟩

/-- Between the same lexemes, the gaps are what is left of the text. -/
theorem eq_of_spelled_eq {pieces pieces' : List (Lexeme × Gap)}
    (hl : pieces.map Prod.fst = pieces'.map Prod.fst) (h : spelled pieces = spelled pieces') :
    pieces = pieces' := by
  induction pieces generalizing pieces' with
  | nil =>
    rcases pieces' with _ | ⟨piece', rest'⟩
    · rfl
    · cases hl
  | cons piece rest ih =>
    rcases pieces' with _ | ⟨piece', rest'⟩
    · cases hl
    · obtain ⟨hfirst, hothers⟩ := List.cons.inj hl
      rw [spelled_cons, spelled_cons, hfirst] at h
      obtain ⟨hgap, hrest⟩ := gap_spelled_inj (List.append_cancel_left h)
      rw [Prod.ext hfirst hgap, ih hothers hrest]

/-- The lexer finds the lexemes of every factoring, so no two of a line differ in them. -/
theorem eq_of_chars_eq {factoring other : Factoring} (h : factoring.chars = other.chars) :
    factoring = other := by
  have htokens : factoring.tokens = other.tokens := by rw [← lex_chars, ← lex_chars, h]
  have hlexemes : factoring.pieces.map Prod.fst = other.pieces.map Prod.fst := by
    have hinj : Function.Injective Lexeme.token := fun _ _ => Lexeme.token_injective
    refine hinj.list_map ?_
    simpa [tokens, Function.comp_def] using htokens
  obtain ⟨hfirst, hspelled⟩ := gap_spelled_inj h
  have hpieces := eq_of_spelled_eq hlexemes hspelled
  obtain ⟨first, pieces, _⟩ := factoring
  obtain ⟨first', pieces', _⟩ := other
  obtain rfl : first = first' := hfirst
  obtain rfl : pieces = pieces' := hpieces
  rfl

/-! ## Nothing but gaps is lost -/

end Factoring

namespace Lexeme

theorem toList_text_token (lexeme : Lexeme) : lexeme.token.text.toList = lexeme.chars := by
  cases lexeme with
  | append => rfl
  | symbol c hc =>
    rcases Token.eq_of_isSymbol hc with rfl | rfl | rfl | rfl | rfl <;>
      simp [token, TokenKind.ofSymbol, Token.text, Token.isWord, Token.symbol, TokenKind.symbol,
        chars]
  | word first others hw => exact String.toList_ofList

theorem kind_token (lexeme : Lexeme) :
    lexeme.token.kind ∉ [TokenKind.invalid, .groupStart, .groupEnd] := by
  cases lexeme with
  | append => decide
  | symbol c hc =>
    rcases Token.eq_of_isSymbol hc with rfl | rfl | rfl | rfl | rfl <;>
      simp [token, TokenKind.ofSymbol, Token.symbol]
  | word first others hw => simp [token, Token.word]

end Lexeme

/-- The texts of the tokens are the line without its gaps. -/
theorem Factoring.flatMap_text_tokens (factoring : Factoring) :
    factoring.tokens.flatMap (fun token => token.text.toList) =
      factoring.chars.filter fun c => !isGap c := by
  have hgap : ∀ gap : Gap, gap.1.filter (fun c => !isGap c) = [] := fun gap =>
    List.filter_eq_nil_iff.2 fun c hc => by simp [gap.2 c hc]
  have hlexeme : ∀ lexeme : Lexeme, lexeme.chars.filter (fun c => !isGap c) = lexeme.chars :=
    fun lexeme => List.filter_eq_self.2 fun c hc => by simp [Lexeme.isGap_of_mem hc]
  rw [chars, tokens, List.filter_append, hgap, List.nil_append]
  induction factoring.pieces with
  | nil => rfl
  | cons piece rest ih =>
    rw [List.map_cons, List.flatMap_cons, ih, spelled_cons, List.filter_append,
      List.filter_append, hgap, hlexeme, Lexeme.toList_text_token, List.nil_append]

namespace TokenList

/-- On a line there are no tokens but lexemes. -/
theorem exists_lexeme_of_mem {line : String} {token : Token} (h : token ∈ (ofLine line).tokens) :
    ∃ lexeme : Lexeme, lexeme.token = token := by
  obtain ⟨factoring, hchars⟩ := Factoring.exists_chars_eq line.toList
  have htoken : token ∈ factoring.tokens := by
    rw [← Factoring.lex_chars, hchars]
    exact List.mem_of_mem_take h
  obtain ⟨piece, -, rfl⟩ := List.mem_map.1 htoken
  exact ⟨piece.1, rfl⟩

/-- A line is gaps and lexemes in exactly one way. Its tokens are the lexemes, up to the limit; as
long as there are no more, only gaps are lost of the line. No token has a kind that is not on
lines. -/
theorem ofLine_factoring (line : String) :
    ∃ factoring : Factoring, factoring.chars = line.toList ∧
      (∀ other : Factoring, other.chars = line.toList → other = factoring) ∧
      (ofLine line).tokens = (factoring.pieces.map fun piece => piece.1.token).take maxTokens ∧
      ((ofLine line).truncated ↔ maxTokens < factoring.pieces.length) ∧
      ((ofLine line).truncated = false → String.join ((ofLine line).tokens.map Token.text) =
        String.ofList (line.toList.filter fun c => !isGap c)) ∧
      ∀ token ∈ (ofLine line).tokens,
        token.kind ∉ [TokenKind.invalid, .groupStart, .groupEnd] := by
  obtain ⟨factoring, hchars⟩ := Factoring.exists_chars_eq line.toList
  have hlex : lex line.toList = factoring.tokens := by rw [← hchars, Factoring.lex_chars]
  have htokens : (ofLine line).tokens = factoring.tokens.take maxTokens := by rw [ofLine, hlex]
  have htruncated : (ofLine line).truncated ↔ maxTokens < factoring.pieces.length := by
    rw [ofLine, hlex, Factoring.tokens, List.length_map, decide_eq_true_iff]
  refine ⟨factoring, hchars, fun other ho => Factoring.eq_of_chars_eq (ho.trans hchars.symm),
    htokens, htruncated, fun hall => ?_, fun token ht => ?_⟩
  · have hle : factoring.tokens.length ≤ maxTokens := by
      rw [Factoring.tokens, List.length_map, ← Nat.not_lt, ← htruncated, hall]
      exact Bool.false_ne_true
    refine String.toList_injective ?_
    rw [htokens, List.take_of_length_le hle, String.toList_join, String.toList_ofList, ← hchars,
      ← Factoring.flatMap_text_tokens, List.flatMap_map]
  · rw [htokens] at ht
    obtain ⟨piece, -, rfl⟩ := List.mem_map.1 (List.mem_of_mem_take ht)
    exact piece.1.kind_token

end TokenList

end TinyShell
