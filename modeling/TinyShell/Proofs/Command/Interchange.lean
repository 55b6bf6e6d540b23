import TinyShell.Proofs.Command.WellFormed

/-!
# Redirections that change places

`SimpleCommand.parse_redirections`: redirections of different descriptors, and a redirection and
`&`, may stand in either order, and a redirection right before another one of the same descriptor
may be left out. This holds whatever else the stage consists of, also if it is full of faults.

Tokens are `Interchangeable` if they begin with a symbol and leave the same command behind, whatever
is read next. What comes before them cannot tell them apart either, because a stage reads at most
one token ahead and only wants to know if that is a word (`Interchangeable.parseTail_eq`,
`Interchangeable.parse_eq`).
-/

namespace TinyShell

/-- A redirection as it is written: its symbol, and the word that names the file. -/
def Token.redirecting (symbol : TokenKind) (path : String) : List Token :=
  [.symbol symbol, .word path]

namespace SimpleCommand

open Token (redirecting)

/-! ## Slots -/

theorem redirect_comm (slots : Slots) {kind : RedirKind} (h : kind ≠ .input)
    (path other : String) : (slots.redirect .input path).redirect kind other =
      (slots.redirect kind other).redirect .input path := by
  cases kind with
  | input => exact absurd rfl h
  | output | append | unset => rfl

/-- The last redirection of a slot is the one that counts. -/
theorem redirect_redirect (slots : Slots) {kind later : RedirKind}
    (h : kind = later ∨ kind ∈ [.output, .append] ∧ later ∈ [.output, .append])
    (path other : String) :
    (slots.redirect kind path).redirect later other = slots.redirect later other := by
  rcases h with rfl | ⟨hk, hl⟩
  · cases kind <;> rfl
  · simp only [List.mem_cons, List.not_mem_nil, or_false] at hk hl
    rcases hk with rfl | rfl <;> rcases hl with rfl | rfl <;> rfl

/-! ## Steps of a stage -/

theorem parseTail_background (command : SimpleCommand) (rest : List Token) :
    parseTail command ([.symbol .background] ++ rest) =
      parseTail { command with background := true } rest := rfl

theorem parseTail_redirecting {symbol : TokenKind} {kind : RedirKind}
    (h : symbol.redirection? = some kind) (command : SimpleCommand) (path : String)
    (rest : List Token) : parseTail command (redirecting symbol path ++ rest) =
      parseTail { command with slots := command.slots.redirect kind path } rest := by
  cases symbol <;> cases h <;> rfl

/-- A symbol of redirection without the word that it needs. -/
theorem parseTail_missing {symbol : Token} {kind : RedirKind}
    (h : symbol.kind.redirection? = some kind) (command : SimpleCommand) {tokens : List Token}
    (ht : ∀ token ∈ tokens.head?, token.isWord = false) :
    parseTail command (symbol :: tokens) = command.withFault .missingDestination := by
  obtain ⟨symbol, value⟩ := symbol
  rcases tokens with _ | ⟨token, rest⟩
  · cases symbol <;> cases h <;> rfl
  · have hword : token.isWord = false := ht token rfl
    cases symbol <;> cases h <;> simp [parseTail, TokenKind.redirection?, hword]

/-- Words end where a symbol stands. -/
theorem leadingWords_append_symbol {before tokens : List Token}
    (h : ∀ token ∈ tokens.head?, token.isWord = false) :
    leadingWords (before ++ tokens) = leadingWords before := by
  induction before with
  | nil => rcases tokens with _ | ⟨token, rest⟩ <;> simp_all [leadingWords]
  | cons token before ih => by_cases hw : token.isWord <;> simp_all [leadingWords]

theorem dropWhile_append_symbol {before tokens : List Token}
    (h : ∀ token ∈ tokens.head?, token.isWord = false) :
    (before ++ tokens).dropWhile Token.isWord = before.dropWhile Token.isWord ++ tokens := by
  induction before with
  | nil => rcases tokens with _ | ⟨token, rest⟩ <;> simp_all
  | cons token before ih => by_cases hw : token.isWord <;> simp_all

/-! ## Tokens in place of others -/

/-- Tokens that may stand for each other: they begin with a symbol, and whatever comes next finds
the same command. -/
structure Interchangeable (tokens tokens' : List Token) : Prop where
  symbol : ∃ token ∈ tokens.head?, token.isWord = false
  symbol' : ∃ token ∈ tokens'.head?, token.isWord = false
  tail : ∀ command rest, parseTail command (tokens ++ rest) = parseTail command (tokens' ++ rest)

namespace Interchangeable

variable {tokens tokens' : List Token}

theorem head_append (h : ∃ token ∈ tokens.head?, token.isWord = false) (rest : List Token) :
    ∀ token ∈ (tokens ++ rest).head?, token.isWord = false := by
  obtain ⟨first, hm, hw⟩ := h
  rcases tokens with _ | ⟨token, others⟩
  · cases hm
  · obtain rfl : token = first := by simpa using hm
    simpa using hw

/-- In the tail of a stage. -/
theorem parseTail_eq (h : Interchangeable tokens tokens') (command : SimpleCommand)
    (before rest : List Token) : parseTail command (before ++ (tokens ++ rest)) =
      parseTail command (before ++ (tokens' ++ rest)) := by
  fun_induction parseTail command before with
  | case1 command => exact h.tail command rest
  | case2 command token before hb ih => simpa [parseTail, hb] using ih
  | case3 command token before hw => simp [parseTail, hw]
  | case4 command token before hb hw hk ih => simpa [parseTail, hb, hw, hk] using ih
  | case5 command token kind _ _ hk =>
    -- the word would have to come from what is exchanged
    rw [List.singleton_append, List.singleton_append,
      parseTail_missing hk command (head_append h.symbol rest),
      parseTail_missing hk command (head_append h.symbol' rest)]
  | case6 command token kind destination before hd hb hw hk ih =>
    simpa [parseTail, hb, hw, hk, hd] using ih
  | case7 command token kind destination before hd _ _ hk => simp [parseTail, hk, hd]

/-- In a stage. -/
theorem parse_eq (h : Interchangeable tokens tokens') (before rest : List Token) :
    parse (before ++ tokens ++ rest) = parse (before ++ tokens' ++ rest) := by
  have hhead := head_append h.symbol rest
  have hhead' := head_append h.symbol' rest
  rw [List.append_assoc, List.append_assoc]
  rcases Nat.lt_or_ge maxArgs (leadingWords before).length with hover | hle
  · rw [parse_beyond (by rwa [leadingWords_append_symbol hhead]),
      parse_beyond (by rwa [leadingWords_append_symbol hhead']),
      leadingWords_append_symbol hhead, leadingWords_append_symbol hhead']
  · rw [parse_within (by rwa [leadingWords_append_symbol hhead]),
      parse_within (by rwa [leadingWords_append_symbol hhead']),
      leadingWords_append_symbol hhead, leadingWords_append_symbol hhead',
      dropWhile_append_symbol hhead, dropWhile_append_symbol hhead', h.parseTail_eq]

theorem parse_eq_append {first second first' second' : List Token}
    (h : Interchangeable (first ++ second) (first' ++ second')) (before rest : List Token) :
    parse (before ++ first ++ second ++ rest) = parse (before ++ first' ++ second' ++ rest) := by
  rw [List.append_assoc before first, List.append_assoc before first']
  exact h.parse_eq before rest

/-! ## Redirections -/

variable {symbol later : TokenKind} {kind next : RedirKind} (path other : String)

theorem isWord_of_redirection (h : symbol.redirection? = some kind) :
    (Token.symbol symbol).isWord = false := by
  cases symbol <;> cases h <;> rfl

/-- Each slot gets its file, in whatever order. -/
theorem input_redirect (h : symbol.redirection? = some kind) (hk : kind ≠ .input) :
    Interchangeable (redirecting .redirIn path ++ redirecting symbol other)
      (redirecting symbol other ++ redirecting .redirIn path) := by
  have hin : TokenKind.redirection? .redirIn = some .input := rfl
  refine ⟨⟨_, rfl, rfl⟩, ⟨_, rfl, isWord_of_redirection h⟩, fun command rest => ?_⟩
  rw [List.append_assoc, List.append_assoc, parseTail_redirecting hin, parseTail_redirecting h,
    parseTail_redirecting h, parseTail_redirecting hin, redirect_comm _ hk]

theorem background_redirect (h : symbol.redirection? = some kind) :
    Interchangeable ([.symbol .background] ++ redirecting symbol path)
      (redirecting symbol path ++ [.symbol .background]) := by
  refine ⟨⟨_, rfl, rfl⟩, ⟨_, rfl, isWord_of_redirection h⟩, fun command rest => ?_⟩
  rw [List.append_assoc, List.append_assoc, parseTail_background, parseTail_redirecting h,
    parseTail_redirecting h, parseTail_background]

/-- The file of the first redirection is forgotten. -/
theorem redirect_absorbed (h : symbol.redirection? = some kind)
    (hl : later.redirection? = some next)
    (hs : kind = next ∨ kind ∈ [.output, .append] ∧ next ∈ [.output, .append]) :
    Interchangeable (redirecting symbol path ++ redirecting later other)
      (redirecting later other) := by
  refine ⟨⟨_, rfl, isWord_of_redirection h⟩, ⟨_, rfl, isWord_of_redirection hl⟩,
    fun command rest => ?_⟩
  rw [List.append_assoc, parseTail_redirecting h, parseTail_redirecting hl,
    parseTail_redirecting hl, redirect_redirect _ hs]

end Interchangeable

/-! ## Symbols -/

theorem exists_redirection_of_writing {symbol : TokenKind}
    (h : symbol ∈ [TokenKind.redirOut, .redirAppend]) :
    ∃ kind ∈ [RedirKind.output, .append], symbol.redirection? = some kind := by
  simp only [List.mem_cons, List.not_mem_nil, or_false] at h
  rcases h with rfl | rfl
  · exact ⟨.output, by simp, rfl⟩
  · exact ⟨.append, by simp, rfl⟩

/-- The symbols that set one slot. -/
theorem exists_redirections_of_slot {slot : List TokenKind} {symbol later : TokenKind}
    (h : slot ∈ [[TokenKind.redirIn], [.redirOut, .redirAppend]]) (hs : symbol ∈ slot)
    (hl : later ∈ slot) :
    ∃ kind next, symbol.redirection? = some kind ∧ later.redirection? = some next ∧
      (kind = next ∨ kind ∈ [.output, .append] ∧ next ∈ [.output, .append]) := by
  simp only [List.mem_cons, List.not_mem_nil, or_false] at h
  rcases h with rfl | rfl
  · obtain rfl := List.mem_singleton.1 hs
    obtain rfl := List.mem_singleton.1 hl
    exact ⟨.input, .input, rfl, rfl, .inl rfl⟩
  · obtain ⟨kind, hm, hk⟩ := exists_redirection_of_writing hs
    obtain ⟨next, hmn, hn⟩ := exists_redirection_of_writing hl
    exact ⟨kind, next, hk, hn, .inr ⟨hm, hmn⟩⟩

/-- Whatever comes before and after them, redirections of different descriptors may change places,
and so may a redirection and `&`; and of two redirections of one descriptor in a row, the first one
does not count. -/
theorem parse_redirections (before rest : List Token) (path other : String) :
    (∀ symbol ∈ [TokenKind.redirOut, .redirAppend],
      parse (before ++ redirecting .redirIn path ++ redirecting symbol other ++ rest) =
        parse (before ++ redirecting symbol other ++ redirecting .redirIn path ++ rest)) ∧
    (∀ symbol ∈ [TokenKind.redirIn, .redirOut, .redirAppend],
      parse (before ++ [.symbol .background] ++ redirecting symbol path ++ rest) =
        parse (before ++ redirecting symbol path ++ [.symbol .background] ++ rest)) ∧
    ∀ slot ∈ [[TokenKind.redirIn], [.redirOut, .redirAppend]], ∀ symbol ∈ slot, ∀ later ∈ slot,
      parse (before ++ redirecting symbol path ++ redirecting later other ++ rest) =
        parse (before ++ redirecting later other ++ rest) := by
  refine ⟨fun symbol hs => ?_, fun symbol hs => ?_, fun slot hslot symbol hs later hl => ?_⟩
  · obtain ⟨kind, hm, hk⟩ := exists_redirection_of_writing hs
    have hne : kind ≠ .input := by
      rintro rfl
      simp at hm
    exact (Interchangeable.input_redirect path other hk hne).parse_eq_append before rest
  · obtain ⟨kind, hk⟩ : ∃ kind, symbol.redirection? = some kind := by
      rcases List.mem_cons.1 hs with rfl | hs
      · exact ⟨.input, rfl⟩
      · obtain ⟨kind, -, hk⟩ := exists_redirection_of_writing hs
        exact ⟨kind, hk⟩
    exact (Interchangeable.background_redirect path hk).parse_eq_append before rest
  · obtain ⟨kind, next, hk, hn, hsame⟩ := exists_redirections_of_slot hslot hs hl
    rw [List.append_assoc before]
    exact (Interchangeable.redirect_absorbed path other hk hn hsame).parse_eq before rest

/-- A redirection before them that does not count, and a word too many after them. -/
theorem parse_redirections_extra :
    let before := Token.lex "sort -u > draft".toList
    let rest := Token.lex "& extra < in".toList
    (TokenKind.redirAppend ∈ [TokenKind.redirOut, .redirAppend] ∧
      parse (before ++ redirecting .redirIn "a" ++ redirecting .redirAppend "b" ++ rest) =
        parse (before ++ redirecting .redirAppend "b" ++ redirecting .redirIn "a" ++ rest)) ∧
    (TokenKind.redirIn ∈ [TokenKind.redirIn, .redirOut, .redirAppend] ∧
      parse (before ++ [.symbol .background] ++ redirecting .redirIn "a" ++ rest) =
        parse (before ++ redirecting .redirIn "a" ++ [.symbol .background] ++ rest)) ∧
    ([TokenKind.redirOut, .redirAppend] ∈ [[TokenKind.redirIn], [.redirOut, .redirAppend]] ∧
      TokenKind.redirAppend ∈ [TokenKind.redirOut, .redirAppend] ∧
      TokenKind.redirOut ∈ [TokenKind.redirOut, .redirAppend] ∧
      parse (before ++ redirecting .redirAppend "a" ++ redirecting .redirOut "b" ++ rest) =
        parse (before ++ redirecting .redirOut "b" ++ rest)) := by
  intro before rest
  obtain ⟨hexchange, hbackground, habsorbed⟩ := parse_redirections before rest "a" "b"
  exact ⟨⟨by decide, hexchange _ (by decide)⟩, ⟨by decide, hbackground _ (by decide)⟩,
    by decide, by decide, by decide,
    habsorbed [.redirOut, .redirAppend] (by decide) _ (by decide) _ (by decide)⟩

end SimpleCommand

end TinyShell
