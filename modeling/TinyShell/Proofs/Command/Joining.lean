import TinyShell.Proofs.Command.Diagnosis
import TinyShell.Proofs.Command.Writing

/-!
# Lines joined by `;`

`Command.parse_joined`: the commands of two lines with `;` between them are those of the one and
then those of the other, with the faults of both, unless together they are over a limit. A `;` with
nothing on one side of it is as good as none, also on a line that is rejected.

The budget of a line is handed on from part to part, so what a part comes to could depend on all
those before it. It does not, as long as the budget lasts (`ofPart_mono`, `ofParts_mono`), and parts
in a row come to what each of them does (`ofParts_append`). Empty parts take nothing out of it
(`ofParts_filter`).
-/

namespace TinyShell.Command

/-- What there is to run: the entries of a list, or a single command. -/
def contents : Command → List Command
  | empty _ | invalid _ => []
  | list entries _ => entries
  | command => [command]

/-! ## Parts in a row -/

/-- A part that fits into what is left of a budget is the same command if there was more left. -/
theorem ofPart_mono {less used : Nat} (hle : less ≤ used) (part : List Token)
    (h : (ofPart used part).1.faults.overCapacity = false) :
    (ofPart less part).1 = (ofPart used part).1 ∧ (ofPart less part).2 ≤ (ofPart used part).2 := by
  by_cases hne : part = []
  · subst hne
    exact ⟨rfl, hle⟩
  rcases Nat.lt_or_ge maxCommands (used + (stagesOf part).length) with hover | hfit
  · rw [ofPart_over hne hover, overBudget_overCapacity] at h
    cases h
  · rw [ofPart_within hne hfit, ofPart_within hne (by omega)]
    exact ⟨rfl, by omega⟩

theorem le_ofPart (used : Nat) (part : List Token) : used ≤ (ofPart used part).2 := by
  by_cases hne : part = []
  · subst hne
    exact Nat.le_refl _
  rcases Nat.lt_or_ge maxCommands (used + (stagesOf part).length) with hover | hfit
  · rw [ofPart_over hne hover]
  · rw [ofPart_within hne hfit]
    exact Nat.le_add_right _ _

theorem ofParts_mono {less used : Nat} (hle : less ≤ used) {parts : List (List Token)}
    {entries : List Command} {faults : Faults} (h : ofParts used parts = .ok (entries, faults)) :
    ofParts less parts = .ok (entries, faults) := by
  induction parts generalizing less used entries faults with
  | nil => exact h
  | cons part parts ih =>
    obtain ⟨hc, rest, others, hr, rfl, rfl⟩ := ofParts_cons_ok h
    obtain ⟨hsame, hless⟩ := ofPart_mono hle part hc
    rw [ofParts_cons (hsame ▸ hc), ih hless hr, hsame]
    rfl

/-- Parts in a row have their entries in a row, and the faults of all. -/
theorem ofParts_append {used : Nat} {first second : List (List Token)} {entries : List Command}
    {faults : Faults} (h : ofParts used (first ++ second) = .ok (entries, faults)) :
    ∃ left leftFaults right rightFaults between, used ≤ between ∧
      ofParts used first = .ok (left, leftFaults) ∧
      ofParts between second = .ok (right, rightFaults) ∧ entries = left ++ right ∧
      faults = leftFaults ∪ rightFaults := by
  induction first generalizing used entries faults with
  | nil =>
    exact ⟨[], ∅, entries, faults, used, Nat.le_refl _, rfl, h, rfl, faults.empty_union.symm⟩
  | cons part parts ih =>
    obtain ⟨hc, rest, others, hr, rfl, rfl⟩ := ofParts_cons_ok h
    obtain ⟨left, leftFaults, right, rightFaults, between, hle, hl, hright, rfl, rfl⟩ := ih hr
    refine ⟨if (ofPart used part).1.isEmpty then left else (ofPart used part).1 :: left,
      (ofPart used part).1.faults ∪ leftFaults, right, rightFaults, between,
      (le_ofPart used part).trans hle, ?_, hright, ?_, (Faults.union_assoc ..).symm⟩
    · rw [ofParts_cons hc, hl]
      rfl
    · split <;> rfl

/-! ## Empty parts -/

/-- Empty parts are free. -/
theorem ofParts_filter (used : Nat) (parts : List (List Token)) :
    ofParts used (parts.filter (· ≠ [])) = ofParts used parts := by
  induction parts generalizing used with
  | nil => rfl
  | cons part rest ih =>
    by_cases hne : part = []
    · subst hne
      rw [List.filter_cons_of_neg (by simp), ih, ofParts_nil_cons]
    · rw [List.filter_cons_of_pos (by simpa using hne)]
      rcases hc : (ofPart used part).1.faults.overCapacity with _ | _
      · rw [ofParts_cons hc, ofParts_cons hc, ih]
      · rw [ofParts_cons_error hc, ofParts_cons_error hc]

/-- Only the parts that are not empty make a line what it is. -/
theorem parse_congr {tokens tokens' : List Token}
    (h : (Token.sections .list tokens).filter (· ≠ []) =
      (Token.sections .list tokens').filter (· ≠ [])) :
    parse ⟨tokens, false⟩ = parse ⟨tokens', false⟩ := by
  have hparts : ofParts 0 (Token.sections .list tokens) =
      ofParts 0 (Token.sections .list tokens') := by
    rw [← ofParts_filter, h, ofParts_filter]
  simp only [parse, hparts]

/-! ## Single parts -/

/-- A part over a limit is nothing but its faults. -/
theorem ofPart_eq_invalid {used : Nat} {part : List Token}
    (h : (ofPart used part).1.faults.overCapacity) :
    (ofPart used part).1 = .invalid (ofPart used part).1.faults := by
  by_cases hne : part = []
  · subst hne
    have h : (∅ : Faults).overCapacity := h
    simp at h
  rcases Nat.lt_or_ge maxCommands (used + (stagesOf part).length) with hover | hfit
  · rw [ofPart_over hne hover]
    rfl
  · rw [ofPart_within hne hfit] at h ⊢
    have hpart := ofStages_part (stagesOf_ne_nil hne ▸ List.splitOnP_ne_nil _ part)
    generalize ofStages (stagesOf part) = command at h hpart ⊢
    cases hpart with
    | empty hc => exact absurd h (by simp [faults, hc])
    | invalid _ => rfl
    | entry he _ => exact absurd h (by simp [he.overCapacity])

/-- A line of one part is what that part is. -/
theorem parse_of_forall_ne {tokens : List Token} (h : ∀ token ∈ tokens, token.kind ≠ .list) :
    parse ⟨tokens, false⟩ = parsePipeline tokens := by
  simp only [parse, Token.sections_of_forall_ne h, parsePipeline, Bool.false_eq_true, if_false]
  rcases hc : (ofPart 0 tokens).1.faults.overCapacity with _ | _
  · obtain ⟨-, -, hpart⟩ := ofPart_part (Nat.zero_le _) tokens hc
    rw [ofParts_cons hc]
    generalize (ofPart 0 tokens).1 = command at hc hpart ⊢
    cases hpart with
    | @empty faults _ => exact congrArg Command.empty faults.union_empty
    | invalid h => exact absurd h (by simpa [faults] using hc)
    | entry he _ =>
      simp only [ofParts, Except.map, he.isEmpty, Bool.false_eq_true, if_false]
      exact if_pos command.faults.union_empty
  · rw [ofParts_cons_error hc]
    exact (ofPart_eq_invalid hc).symm

/-! ## Lines -/

theorem contents_ofEntries {entries : List Command} (h : ∀ entry ∈ entries, entry.Entry)
    (faults : Faults) : (ofEntries entries faults).contents = entries := by
  match entries with
  | [] => rfl
  | [entry] =>
    rw [ofEntries]
    split
    · cases h entry List.mem_cons_self <;> rfl
    · rfl
  | _ :: _ :: _ => rfl

/-- A line within all limits, from what its parts come to. -/
theorem parse_of_ofParts {tokens : List Token} {entries : List Command} {faults : Faults}
    (h : ofParts 0 (Token.sections .list tokens) = .ok (entries, faults)) :
    (parse ⟨tokens, false⟩).isInvalid = false ∧ (parse ⟨tokens, false⟩).contents = entries ∧
      (parse ⟨tokens, false⟩).faults = faults := by
  have hentry := (ofParts_ok (Nat.zero_le _) h).entry
  simp only [parse, h, Bool.false_eq_true, if_false]
  exact ⟨ofEntries_isInvalid hentry faults, contents_ofEntries hentry faults,
    ofEntries_faults entries faults⟩

/-- Lines joined by `;` have their commands in a row and the faults of both, unless they are over a
limit. A `;` beside another one or at an end of the line adds nothing, and without `;` a line is a
single part. -/
theorem parse_joined (first second : List Token) :
    ((parse ⟨first ++ .symbol .list :: second, false⟩).isInvalid = false →
      (parse ⟨first, false⟩).isInvalid = false ∧ (parse ⟨second, false⟩).isInvalid = false ∧
      (parse ⟨first ++ .symbol .list :: second, false⟩).contents =
        (parse ⟨first, false⟩).contents ++ (parse ⟨second, false⟩).contents ∧
      (parse ⟨first ++ .symbol .list :: second, false⟩).faults =
        (parse ⟨first, false⟩).faults ∪ (parse ⟨second, false⟩).faults) ∧
    parse ⟨first ++ .symbol .list :: .symbol .list :: second, false⟩ =
      parse ⟨first ++ .symbol .list :: second, false⟩ ∧
    parse ⟨.symbol .list :: first, false⟩ = parse ⟨first, false⟩ ∧
    parse ⟨first ++ [.symbol .list], false⟩ = parse ⟨first, false⟩ ∧
    ((∀ token ∈ first, token.kind ≠ .list) → parse ⟨first, false⟩ = parsePipeline first) := by
  have hleading (tokens : List Token) : Token.sections .list (.symbol .list :: tokens) =
      [] :: Token.sections .list tokens := Token.sections_append .list [] tokens
  refine ⟨fun hvalid => ?_, parse_congr ?_, parse_congr ?_, parse_congr ?_, parse_of_forall_ne⟩
  · rcases hp : ofParts 0 (Token.sections .list (first ++ .symbol .list :: second)) with
      faults | ⟨entries, faults⟩
    · have hinvalid := (parse_isInvalid ⟨_, false⟩).2 (.inr ⟨faults, hp⟩)
      simp [hinvalid] at hvalid
    · obtain ⟨-, hcontents, hfaults⟩ := parse_of_ofParts hp
      rw [Token.sections_append] at hp
      obtain ⟨left, leftFaults, right, rightFaults, between, hle, hl, hr, rfl, rfl⟩ :=
        ofParts_append hp
      obtain ⟨hfirst, hleft, hleftFaults⟩ := parse_of_ofParts hl
      obtain ⟨hsecond, hright, hrightFaults⟩ := parse_of_ofParts (ofParts_mono (Nat.zero_le _) hr)
      rw [hcontents, hfaults, hleft, hright, hleftFaults, hrightFaults]
      exact ⟨hfirst, hsecond, rfl, rfl⟩
  · rw [Token.sections_append, Token.sections_append, hleading, List.filter_append,
      List.filter_append, List.filter_cons_of_neg (by simp)]
  · rw [hleading, List.filter_cons_of_neg (by simp)]
  · rw [Token.sections_append, List.filter_append]
    simp [Token.sections]

/-- A part without `;` that leaves a fault behind, and a line that starts with `;` and ends in a
command without words. -/
theorem parse_joined_nameless :
    let first := Token.lex "sort < in > | wc".toList
    let second := Token.lex "; ls & ;; > out extra".toList
    ((parse ⟨first ++ .symbol .list :: second, false⟩).isInvalid = false ∧
      (parse ⟨first ++ .symbol .list :: second, false⟩).contents =
        (parse ⟨first, false⟩).contents ++ (parse ⟨second, false⟩).contents ∧
      (parse ⟨first ++ .symbol .list :: second, false⟩).faults =
        (parse ⟨first, false⟩).faults ∪ (parse ⟨second, false⟩).faults) ∧
    (∀ token ∈ first, token.kind ≠ .list) ∧ parse ⟨first, false⟩ = parsePipeline first := by
  intro first second
  have hvalid : (parse ⟨first ++ .symbol .list :: second, false⟩).isInvalid = false := by
    decide +kernel
  have hsingle : ∀ token ∈ first, token.kind ≠ .list := by decide +kernel
  obtain ⟨hjoin, -, -, -, hpart⟩ := parse_joined first second
  obtain ⟨-, -, hcontents, hfaults⟩ := hjoin hvalid
  exact ⟨⟨hvalid, hcontents, hfaults⟩, hsingle, hpart hsingle⟩

end TinyShell.Command
