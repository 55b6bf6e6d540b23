import Mathlib.Data.List.TakeWhile
import TinyShell.Proofs.Command.WellFormed

/-!
# The grammar of simple commands

`SimpleCommand.parse_grammatical`: a stage is without faults just if it is grammatical, that is some
words and then redirections and `&` in any order. What it asks for can then be read off its tokens:
of the redirections of a descriptor, the last one counts. The words are kept in any case, as many as
are allowed.

`Tail` takes the tail of a stage apart as the parser does, so each fact about tails is an induction
in step with it: what a tail adds to a command (`Tail.parseTail_eq`), and that nothing else is free
of faults (`tail_of_parseTail`).
-/

namespace TinyShell

namespace Token

/-- The redirections of a descriptor, by symbols of these kinds, to the files that the tokens behind
the symbols name. -/
def redirections (fd : Descriptor) (kinds : List (TokenKind × RedirKind)) (tokens : List Token) :
    List Redirection :=
  (tokens.zip tokens.tail).filterMap fun (symbol, word) =>
    (kinds.lookup symbol.kind).map (Redirection.toPath fd · word.value)

/-- The symbols of reading. -/
def readKinds : List (TokenKind × RedirKind) := [(.redirIn, .input)]

/-- The symbols of writing. -/
def writeKinds : List (TokenKind × RedirKind) := [(.redirOut, .output), (.redirAppend, .append)]

variable {fd : Descriptor} {kinds : List (TokenKind × RedirKind)}

theorem redirections_cons {token : Token} (h : kinds.lookup token.kind = none)
    (rest : List Token) : redirections fd kinds (token :: rest) = redirections fd kinds rest := by
  cases rest <;> simp [redirections, h]

theorem redirections_cons_cons {symbol word : Token} {kind : RedirKind}
    (h : kinds.lookup symbol.kind = some kind) (hw : kinds.lookup word.kind = none)
    (rest : List Token) : redirections fd kinds (symbol :: word :: rest) =
      .toPath fd kind word.value :: redirections fd kinds rest := by
  rw [← redirections_cons hw rest]
  simp [redirections, h]

/-- Of the redirections, the later ones count. -/
theorem last_cons_cons {symbol word : Token} {kind : RedirKind}
    (h : kinds.lookup symbol.kind = some kind) (hw : kinds.lookup word.kind = none)
    (rest : List Token) (start : Redirection) :
    (redirections fd kinds (symbol :: word :: rest)).getLast?.getD start =
      (redirections fd kinds rest).getLast?.getD (.toPath fd kind word.value) := by
  rw [redirections_cons_cons h hw, List.getLast?_cons, Option.getD_some]

theorem redirections_append {words : List Token}
    (h : ∀ word ∈ words, kinds.lookup word.kind = none) (rest : List Token) :
    redirections fd kinds (words ++ rest) = redirections fd kinds rest := by
  induction words with
  | nil => rfl
  | cons word words ih =>
    obtain ⟨hw, hwords⟩ := List.forall_mem_cons.1 h
    rw [List.cons_append, redirections_cons hw, ih hwords]

end Token

namespace SimpleCommand

open Token (redirections readKinds writeKinds)

/-- What may follow the words of a stage: redirection symbols, each with a word, and `&`. -/
inductive Tail : List Token → Prop
  | nil : Tail []
  | background {symbol : Token} {rest : List Token} : symbol.kind = .background → Tail rest →
    Tail (symbol :: rest)
  | redirect {symbol word : Token} {rest : List Token} :
    symbol.kind ∈ [TokenKind.redirIn, .redirOut, .redirAppend] → word.kind = .word → Tail rest →
    Tail (symbol :: word :: rest)

/-- At most as many words as a command may have, and a tail. -/
def Grammatical (tokens : List Token) : Prop :=
  ∃ words tail, tokens = words ++ tail ∧ words.length ≤ maxArgs ∧
    (∀ word ∈ words, word.kind = .word) ∧ Tail tail

/-- A command with what the symbols among these tokens ask for. -/
def asked (command : SimpleCommand) (tokens : List Token) : SimpleCommand :=
  { command with
    background := command.background || tokens.any fun token => token.kind = .background
    slots := { command.slots with
      input := (redirections 0 readKinds tokens).getLast?.getD command.slots.input
      output := (redirections 1 writeKinds tokens).getLast?.getD command.slots.output } }

/-! ## Tails -/

theorem Tail.takeWhile {tokens : List Token} (h : Tail tokens) :
    tokens.takeWhile Token.isWord = [] := by
  cases h with
  | nil => rfl
  | background hs _ => simp [Token.isWord, hs]
  | redirect hs _ _ =>
    refine List.takeWhile_cons_of_neg ?_
    rw [Token.isWord, decide_eq_true_eq]
    rintro hw
    simp [hw] at hs

/-- A tail is read as what it asks for. -/
theorem Tail.parseTail_eq {tokens : List Token} (h : Tail tokens) (command : SimpleCommand) :
    parseTail command tokens = command.asked tokens := by
  induction h generalizing command with
  | nil => simp [parseTail, asked, redirections]
  | @background symbol rest hs _ ih =>
    obtain ⟨_, value⟩ := symbol
    obtain rfl : _ = TokenKind.background := hs
    refine (ih _).trans ?_
    rw [asked, asked, Token.redirections_cons rfl, Token.redirections_cons rfl]
    simp
  | @redirect symbol word rest hs hw _ ih =>
    obtain ⟨kind, value⟩ := symbol
    obtain ⟨_, path⟩ := word
    obtain rfl : _ = TokenKind.word := hw
    have hmem : kind = .redirIn ∨ kind = .redirOut ∨ kind = .redirAppend := by simpa using hs
    rcases hmem with rfl | rfl | rfl <;> refine (ih _).trans ?_ <;> rw [asked, asked]
    · rw [@Token.last_cons_cons 0 readKinds _ _ .input rfl rfl, Token.redirections_cons rfl,
        Token.redirections_cons rfl]
      rfl
    · rw [@Token.last_cons_cons 1 writeKinds _ _ .output rfl rfl, Token.redirections_cons rfl,
        Token.redirections_cons rfl]
      rfl
    · rw [@Token.last_cons_cons 1 writeKinds _ _ .append rfl rfl, Token.redirections_cons rfl,
        Token.redirections_cons rfl]
      rfl

theorem withFault_faults_ne (command : SimpleCommand) (fault : Fault) :
    (command.withFault fault).faults ≠ ∅ := by
  intro h
  have hmem : fault ∈ (command.withFault fault).faults := by simp [withFault]
  exact Faults.not_mem_empty fault (h ▸ hmem)

/-- What is read without a fault is a tail. -/
theorem tail_of_parseTail {command : SimpleCommand} {tokens : List Token}
    (h : (parseTail command tokens).faults = ∅) : command.faults = ∅ ∧ Tail tokens := by
  fun_induction parseTail command tokens with
  | case1 command => exact ⟨h, .nil⟩
  | case2 command token rest hk ih => exact (ih h).imp id (.background hk)
  | case3 => exact absurd h (withFault_faults_ne _ _)
  | case4 command token rest _ _ _ ih => exact absurd (ih h).1 (withFault_faults_ne _ _)
  | case5 => exact absurd h (withFault_faults_ne _ _)
  | case6 command token redirection destination rest hword _ _ hk ih =>
    refine (ih h).imp id (.redirect ?_ (by simpa [Token.isWord] using hword))
    generalize token.kind = kind at hk
    cases kind <;> first | decide | cases hk
  | case7 => exact absurd h (withFault_faults_ne _ _)

/-! ## Stages -/

/-- The words of a grammatical stage are those that it starts with. -/
theorem leadingWords_append {words tail : List Token} (hw : ∀ word ∈ words, word.kind = .word)
    (ht : Tail tail) : leadingWords (words ++ tail) = words := by
  have hwords : ∀ word ∈ words, word.isWord := fun word hm => by simp [Token.isWord, hw word hm]
  rw [leadingWords, List.takeWhile_append_of_pos hwords, ht.takeWhile, List.append_nil]

/-- No more words than are allowed, and all of those. -/
theorem parse_argv (tokens : List Token) :
    (parse tokens).argv = ((leadingWords tokens).map Token.value).take maxArgs := by
  rcases Nat.lt_or_ge maxArgs (leadingWords tokens).length with h | h
  · rw [parse_beyond h]
    rfl
  · rw [(parse_of_le h).argv, List.take_of_length_le (by simpa using h)]

/-- A grammatical stage is read as its words with what its symbols ask for. -/
theorem Grammatical.parse_eq {tokens : List Token} (h : Grammatical tokens) :
    parse tokens = asked { argv := (leadingWords tokens).map Token.value } tokens := by
  obtain ⟨words, tail, rfl, hle, hw, ht⟩ := h
  have hlead := leadingWords_append hw ht
  have hdrop : (words ++ tail).dropWhile Token.isWord = tail := by
    have hsplit : leadingWords (words ++ tail) ++ (words ++ tail).dropWhile Token.isWord =
        words ++ tail := List.takeWhile_append_dropWhile
    rw [hlead] at hsplit
    exact List.append_cancel_left hsplit
  have hnone {kinds : List (TokenKind × RedirKind)} (hn : kinds.lookup .word = none) :
      ∀ word ∈ words, kinds.lookup word.kind = none := fun word hm => by rw [hw word hm, hn]
  have hany : words.any (fun token => token.kind = .background) = false := by
    rw [List.any_eq_false]
    exact fun word hm => by simp [hw word hm]
  rw [parse_within (by rwa [hlead]), hdrop, ht.parseTail_eq, asked, asked,
    Token.redirections_append (hnone rfl), Token.redirections_append (hnone rfl), List.any_append,
    hany, Bool.false_or]
  rfl

theorem parse_faults_iff (tokens : List Token) :
    (parse tokens).faults = ∅ ↔ Grammatical tokens := by
  refine ⟨fun h => ?_, fun h => by rw [h.parse_eq]; rfl⟩
  have hle : (leadingWords tokens).length ≤ maxArgs := by
    rw [← Nat.not_lt, ← parse_overCapacity, h]
    exact Bool.false_ne_true
  rw [parse_within hle] at h
  refine ⟨leadingWords tokens, tokens.dropWhile Token.isWord,
    List.takeWhile_append_dropWhile.symm, hle, fun word hm => ?_, (tail_of_parseTail h).2⟩
  simpa [Token.isWord] using List.mem_takeWhile_imp hm

/-- The parser finds no fault just with grammatical stages. Of these it has the words, the last
redirections and whether there is a `&`, and of any other stage the words that are allowed. -/
theorem parse_grammatical (tokens : List Token) :
    ((parse tokens).faults = ∅ ↔ Grammatical tokens) ∧
    (Grammatical tokens → parse tokens = {
      argv := (leadingWords tokens).map Token.value
      background := tokens.any fun token => token.kind = .background
      faults := ∅
      slots := {
        input := (redirections 0 readKinds tokens).getLast?.getD (.none 0)
        output := (redirections 1 writeKinds tokens).getLast?.getD (.none 1)
        error := .none 2 } }) ∧
    (parse tokens).argv = ((leadingWords tokens).map Token.value).take maxArgs := by
  refine ⟨parse_faults_iff tokens, fun h => ?_, parse_argv tokens⟩
  rw [h.parse_eq, asked, Bool.false_or]

/-- Both descriptors redirected twice, and a `&` in between. -/
theorem parse_grammatical_sort :
    let tokens := Token.lex "sort -u < draft > out & >> log < final".toList
    Grammatical tokens ∧ parse tokens = {
      argv := ["sort", "-u"]
      background := true
      slots := { input := .toPath 0 .input "final", output := .toPath 1 .append "log" } } := by
  intro tokens
  have h : Grammatical tokens := (parse_grammatical tokens).1.1 (by decide +kernel)
  exact ⟨h, ((parse_grammatical tokens).2.1 h).trans (by decide +kernel)⟩

end SimpleCommand

end TinyShell
