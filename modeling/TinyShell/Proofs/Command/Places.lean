import TinyShell.Command.PassedOver
import TinyShell.Proofs.Command.Nodes
import TinyShell.Proofs.Token.Factoring

/-!
# Every token of a line has a place

`Command.ofLine_syntaxErrors`: nothing of a line of text is passed over, so all that can be wrong
with the syntax of one is a word behind the redirections of a stage. The lexer has no other kinds of
token than words, redirections, `&`, `;` and `|`; the last two are gone when a stage is read
(`Token.hasPlace_of_mem_stage`), and what is left is what its tail is made of
(`passedOverTail_eq_nil`).

A stage then ends in one of four ways, each with its own faults (`SimpleCommand.verdicts`). Above
the stages faults are only put together, or those of capacity added, which keeps them `Accounted`.
-/

namespace TinyShell

/-- The kinds that the parser knows in a stage. -/
def TokenKind.HasPlace (kind : TokenKind) : Prop :=
  kind ∈ [word, redirIn, redirOut, redirAppend, background]

/-- A syntax error comes with the word that should not be there, and no kind of command is
unknown. -/
def Faults.Accounted (faults : Faults) : Prop :=
  (.syntaxError ∈ faults ↔ .argumentAfterRedirect ∈ faults) ∧ .unknownType ∉ faults

namespace Token

/-- In a stage of a line of text, each token has its place. -/
theorem hasPlace_of_mem_stage {line : String} {stage : List Token}
    (h : stage ∈ (parts (TokenList.ofLine line).tokens).flatten) {token : Token}
    (ht : token ∈ stage) : token.kind.HasPlace := by
  obtain ⟨hline, hlist, hpipe⟩ := mem_of_mem_parts h ht
  obtain ⟨lexeme, rfl⟩ := TokenList.exists_lexeme_of_mem hline
  have hkind := lexeme.kind_token
  generalize lexeme.token.kind = kind at hlist hpipe hkind
  unfold TokenKind.HasPlace
  revert hlist hpipe hkind
  cases kind <;> decide

end Token

/-! ## Stages -/

namespace SimpleCommand

/-- A step of a tail, whether or not it is the last one. -/
theorem passedOverTail_cons (token : Token) (rest : List Token) :
    passedOverTail (token :: rest) =
      match token.kind with
      | .background => passedOverTail rest
      | .word => []
      | kind =>
        match kind.redirection? with
        | none => kind :: passedOverTail rest
        | some _ =>
          match rest with
          | [] => []
          | destination :: rest => if destination.isWord then passedOverTail rest else [] := by
  obtain ⟨kind, value⟩ := token
  cases rest <;> cases kind <;> rfl

theorem passedOverTail_eq_nil {tokens : List Token} (h : ∀ token ∈ tokens, token.kind.HasPlace) :
    passedOverTail tokens = [] := by
  fun_induction passedOverTail tokens with
  | case1 => rfl
  | case2 token rest _ ih => exact ih (List.forall_mem_cons.1 h).2
  | case3 => rfl
  | case4 token rest hbackground hword hkind _ =>
    -- a kind that asks for nothing has no place
    have hplace := h token List.mem_cons_self
    generalize token.kind = kind at hbackground hword hkind hplace
    simp only [TokenKind.HasPlace, List.mem_cons, List.not_mem_nil, or_false] at hplace
    rcases hplace with rfl | rfl | rfl | rfl | rfl
    · exact absurd rfl hword
    · cases hkind
    · cases hkind
    · cases hkind
    · exact absurd rfl hbackground
  | case5 => rfl
  | case6 token _ destination rest _ _ _ _ ih =>
    obtain ⟨-, hothers⟩ := List.forall_mem_cons.1 h
    exact ih (List.forall_mem_cons.1 hothers).2
  | case7 => rfl

theorem passedOver_eq_nil {tokens : List Token} (h : ∀ token ∈ tokens, token.kind.HasPlace) :
    passedOver tokens = [] := by
  unfold passedOver
  split
  · exact passedOverTail_eq_nil fun token ht => h token (List.dropWhile_subset _ ht)
  · rfl

/-- Where nothing is passed over, the tail is read to its end, or up to a symbol without its word,
or up to a word without its symbol. -/
theorem parseTail_faults (command : SimpleCommand) {tokens : List Token}
    (h : passedOverTail tokens = []) :
    (parseTail command tokens).faults = command.faults ∨
      (parseTail command tokens).faults = command.faults.insert .missingDestination ∨
      (parseTail command tokens).faults =
        (command.faults.insert .argumentAfterRedirect).insert .syntaxError := by
  fun_induction parseTail command tokens with
  | case1 => exact .inl rfl
  | case2 command token rest hk ih => exact ih (by simpa [passedOverTail_cons, hk] using h)
  | case3 => exact .inr (.inr rfl)
  | case4 command token rest hbackground hword hkind _ =>
    -- this one is passed over
    simp [passedOverTail_cons, hkind] at h
  | case5 => exact .inr (.inl rfl)
  | case6 command token redirection destination rest hd hbackground hword hkind ih =>
    exact ih (by simpa [passedOverTail_cons, hkind, hd] using h)
  | case7 => exact .inr (.inl rfl)

/-- What can be wrong with a stage in which nothing is passed over, at most one of three things. -/
def verdicts : List Faults :=
  [∅, .of .tooManyArguments, .of .missingDestination,
    (Faults.of .argumentAfterRedirect).insert .syntaxError]

theorem parse_faults_mem_verdicts {tokens : List Token} (h : passedOver tokens = []) :
    (parse tokens).faults ∈ verdicts := by
  rcases Nat.lt_or_ge maxArgs (leadingWords tokens).length with hover | hle
  · rw [parse_of_lt hover]
    decide
  · have htail : passedOverTail (tokens.dropWhile Token.isWord) = [] := (if_pos hle).symm.trans h
    rw [parse_within hle]
    rcases parseTail_faults { argv := (leadingWords tokens).map Token.value } htail with
      hf | hf | hf <;> rw [hf] <;> simp only <;> decide

theorem accounted_of_mem_verdicts {faults : Faults} (h : faults ∈ verdicts) :
    faults.Accounted := by
  unfold Faults.Accounted
  revert faults
  decide

end SimpleCommand

/-! ## Lines -/

namespace Command

/-- Faults put together stay accounted, and those of capacity do not count. -/
theorem gathers_accounted :
    Gathers (fun stage => stage.faults.Accounted) Faults.Accounted where
  simple _ h := h
  union a b ha hb := by
    simp only [Faults.Accounted, Faults.mem_union, not_or]
    exact ⟨or_congr ha.1 hb.1, ha.2, hb.2⟩
  capacity faults h := by
    have hnot {fault : Fault} (hf : fault.isCapacity = false) : fault ∉ faults := fun hm => by
      simp [h fault hm] at hf
    exact ⟨iff_of_false (hnot rfl) (hnot rfl), hnot rfl⟩

theorem passedOverParts_eq_nil (used : Nat) {parts : List (List Token)}
    (h : ∀ stage ∈ parts.flatMap stagesOf, SimpleCommand.passedOver stage = []) :
    passedOverParts used parts = [] := by
  induction parts generalizing used with
  | nil => rfl
  | cons part rest ih =>
    simp only [List.flatMap_cons, List.mem_append, or_imp, forall_and] at h
    have hpart : passedOverPart used part = [] := by
      simp only [passedOverPart]
      split
      · rfl
      · rw [List.flatMap_eq_nil_iff]
        intro stage hs
        cases part with
        | nil =>
          obtain rfl : stage = [] := by simpa [Token.sections] using hs
          rfl
        | cons => exact h.1 stage hs
    simp only [passedOverParts, hpart, List.nil_append]
    split
    · rfl
    · exact ih _ h.2

theorem passedOver_eq_nil {list : TokenList}
    (h : ∀ stage ∈ (Token.parts list.tokens).flatten, SimpleCommand.passedOver stage = []) :
    passedOver list = [] := by
  unfold passedOver
  split
  · rfl
  · rw [flatten_parts] at h
    exact passedOverParts_eq_nil 0 h

/-- Of a line of text, no token is passed over. So at every node of its tree, and in each of its
stages whatever becomes of it, a syntax error is there just if a word stands behind a redirection,
and no command is of an unknown kind. A stage has no fault, too many words, a redirection without
its word, or a word without its redirection, and no two of these. -/
theorem ofLine_syntaxErrors (line : String) :
    passedOver (.ofLine line) = [] ∧
    (ofLine line).AllNodes (fun command => command.faults.Accounted) Faults.Accounted ∧
    ∀ stage ∈ (Token.parts (TokenList.ofLine line).tokens).flatten,
      (∀ token ∈ stage, token.kind.HasPlace) ∧
      SimpleCommand.passedOver stage = [] ∧
      (SimpleCommand.parse stage).faults.Accounted ∧
      (SimpleCommand.parse stage).faults ∈ SimpleCommand.verdicts := by
  have hstages : ∀ stage ∈ (Token.parts (TokenList.ofLine line).tokens).flatten,
      (∀ token ∈ stage, token.kind.HasPlace) ∧ SimpleCommand.passedOver stage = [] ∧
        (SimpleCommand.parse stage).faults.Accounted ∧
        (SimpleCommand.parse stage).faults ∈ SimpleCommand.verdicts := by
    intro stage hs
    have hplace : ∀ token ∈ stage, token.kind.HasPlace := fun token ht =>
      Token.hasPlace_of_mem_stage hs ht
    have hpassed := SimpleCommand.passedOver_eq_nil hplace
    have hverdict := SimpleCommand.parse_faults_mem_verdicts hpassed
    exact ⟨hplace, hpassed, SimpleCommand.accounted_of_mem_verdicts hverdict, hverdict⟩
  refine ⟨passedOver_eq_nil fun stage hs => (hstages stage hs).2.1, ?_, hstages⟩
  exact parse_allNodes gathers_accounted fun stage hs => (hstages stage hs).2.2.1

end Command

end TinyShell
