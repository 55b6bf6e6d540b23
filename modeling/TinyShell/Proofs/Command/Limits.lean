import Mathlib.Data.List.Basic
import TinyShell.Proofs.Action.Trace
import TinyShell.Proofs.Command.WellFormed
import TinyShell.Rehearsal.Recorder
import TinyShell.Shell.Session

/-!
# Limits

`Shell.runLine_overLimit`: a line is invalid just if its tokens are over one of the four limits, and
of an invalid line nothing runs: the user gets one message, and the shell goes on as it was.

* `Token.OverLimit`: the limits, said of all tokens of a line, however many they are.
* `Command.ofPart_overCapacity`, `Command.ofParts_error_iff`: what is rejected of a part, and of
  the parts of a line when some of its budget is already used.
* `Command.ofLine_isInvalid`: the limits are exact.
-/

namespace TinyShell

/-! ## The limits of a line -/

namespace Token

theorem sections_eq_splitOnP (separator : TokenKind) (tokens : List Token) :
    sections separator tokens = tokens.splitOnP fun token => token.kind = separator := by
  induction tokens with
  | nil => rfl
  | cons token rest ih =>
    rw [sections, List.splitOnP_cons_eq_if_modifyHead, ih]
    by_cases h : token.kind = separator
    · simp [h]
    · simp only [h, decide_false, if_false, Bool.false_eq_true]
      have hne := List.splitOnP_ne_nil (fun token => decide (token.kind = separator)) rest
      generalize List.splitOnP _ rest = sections at hne ⊢
      rcases sections with _ | ⟨first, others⟩
      · exact absurd rfl hne
      · rfl

/-- The parts of a line that are not empty, each as its stages. -/
def parts (tokens : List Token) : List (List (List Token)) :=
  (tokens.splitOnP fun token => token.kind = .list).filter (· ≠ []) |>.map fun part =>
    part.splitOnP fun token => token.kind = .pipe

/-- Too much for one line: tokens, words that a stage starts with, stages of a part, or stages. -/
def OverLimit (tokens : List Token) : Prop :=
  maxTokens < tokens.length ∨
    (∃ part ∈ parts tokens, ∃ stage ∈ part, maxArgs < (stage.takeWhile Token.isWord).length) ∨
    (∃ part ∈ parts tokens, maxStages < part.length) ∨
    maxCommands < (parts tokens).flatten.length

end Token

namespace Command

/-- A part that is over a limit of its own. -/
def PartOver (stages : List (List Token)) : Prop :=
  (∃ stage ∈ stages, maxArgs < (SimpleCommand.leadingWords stage).length) ∨
    maxStages < stages.length

theorem stagesOf_ne_nil {part : List Token} (h : part ≠ []) :
    stagesOf part = part.splitOnP fun token => token.kind = .pipe := by
  rcases part with _ | ⟨token, rest⟩
  · exact absurd rfl h
  · exact Token.sections_eq_splitOnP _ _

/-- The parts that are not empty are all that count. -/
theorem parts_eq (tokens : List Token) :
    Token.parts tokens = ((Token.sections .list tokens).filter (· ≠ [])).map stagesOf := by
  rw [Token.parts, Token.sections_eq_splitOnP]
  refine List.map_congr_left fun part hp => (stagesOf_ne_nil ?_).symm
  simpa using (List.mem_filter.1 hp).2

theorem exists_mem_parts {tokens : List Token} {post : List (List Token) → Prop}
    (h : ¬ post []) : (∃ part ∈ Token.parts tokens, post part) ↔
      ∃ part ∈ Token.sections .list tokens, post (stagesOf part) := by
  rw [parts_eq]
  constructor
  · rintro ⟨_, hm, hp⟩
    obtain ⟨part, hf, rfl⟩ := List.mem_map.1 hm
    exact ⟨part, (List.mem_filter.1 hf).1, hp⟩
  · rintro ⟨part, hm, hp⟩
    refine ⟨_, List.mem_map_of_mem (List.mem_filter.2 ⟨hm, ?_⟩), hp⟩
    have : part ≠ [] := by
      rintro rfl
      exact h hp
    simpa using this

theorem flatten_parts (tokens : List Token) :
    (Token.parts tokens).flatten = (Token.sections .list tokens).flatMap stagesOf := by
  rw [parts_eq]
  induction Token.sections .list tokens with
  | nil => rfl
  | cons part rest ih =>
    by_cases h : part = []
    · simpa [h, stagesOf] using ih
    · simpa [h] using ih

/-! ## What is rejected -/

/-- The faults of stages are those of each of them, and one more if there are too many. -/
theorem mem_ofStages_faults {stages : List (List Token)} {fault : Fault} :
    fault ∈ (ofStages stages).faults ↔ (maxStages < stages.length ∧ fault = .pipelineTooLong) ∨
      ∃ stage ∈ stages, fault ∈ (SimpleCommand.parse stage).faults := by
  unfold ofStages
  split
  · rename_i stage
    have hone : (ofStage (.parse stage)).faults = (SimpleCommand.parse stage).faults := by
      unfold ofStage
      split
      · rfl
      · split <;> rfl
    simp [hone, maxStages]
  · have hmany : (ofPipeline (.ofStages (stages.map .parse))).faults =
        (Pipeline.ofStages (stages.map .parse)).faults := by
      unfold ofPipeline
      split <;> rfl
    simp [hmany, Pipeline.mem_ofStages]

theorem ofStages_overCapacity (stages : List (List Token)) :
    (ofStages stages).faults.overCapacity ↔ PartOver stages := by
  simp only [Faults.overCapacity_iff, mem_ofStages_faults, PartOver,
    ← SimpleCommand.parse_overCapacity]
  constructor
  · rintro ⟨fault, ⟨hl, -⟩ | ⟨stage, hs, hf⟩, hc⟩
    · exact .inr hl
    · exact .inl ⟨stage, hs, fault, hf, hc⟩
  · rintro (⟨stage, hs, fault, hf, hc⟩ | hl)
    · exact ⟨fault, .inr ⟨stage, hs, hf⟩, hc⟩
    · exact ⟨.pipelineTooLong, .inl ⟨hl, rfl⟩, rfl⟩

/-- A part is rejected if it is over a limit of its own or over what is left of the budget. -/
theorem ofPart_overCapacity {used : Nat} (hu : used ≤ maxCommands) (part : List Token) :
    (ofPart used part).1.faults.overCapacity ↔
      PartOver (stagesOf part) ∨ maxCommands < used + (stagesOf part).length := by
  by_cases hne : part = []
  · subst hne
    simp [ofPart_nil, stagesOf, PartOver, faults, Nat.not_lt.2 hu]
  rcases Nat.lt_or_ge maxCommands (used + (stagesOf part).length) with hover | hle
  · rw [ofPart_over hne hover]
    exact iff_of_true (overBudget_overCapacity _) (.inr hover)
  · rw [ofPart_within hne hle, ofStages_overCapacity]
    exact (or_iff_left (Nat.not_lt.2 hle)).symm

/-- The parts of a line are rejected if one of them is, or all together are too many. -/
theorem ofParts_error_iff {used : Nat} (hu : used ≤ maxCommands) (parts : List (List Token)) :
    (∃ faults, ofParts used parts = .error faults) ↔
      (∃ part ∈ parts, PartOver (stagesOf part)) ∨
        maxCommands < used + (parts.flatMap stagesOf).length := by
  induction parts generalizing used with
  | nil => simp [ofParts, Nat.not_lt.2 hu]
  | cons part parts ih =>
    have hpart := ofPart_overCapacity hu part
    simp only [List.exists_mem_cons_iff, List.flatMap_cons, List.length_append]
    rcases hc : (ofPart used part).1.faults.overCapacity with _ | _
    · -- nothing is wrong with this part, so the line depends on the others
      rw [hc] at hpart
      obtain ⟨hnone, -⟩ := not_or.1 (mt hpart.2 Bool.false_ne_true)
      obtain ⟨hused, hle, -⟩ := ofPart_part hu part hc
      have hrest : (∃ faults, ofParts used (part :: parts) = .error faults) ↔
          ∃ faults, ofParts (ofPart used part).2 parts = .error faults := by
        rw [ofParts_cons hc]
        rcases ofParts (ofPart used part).2 parts with faults | rest <;> simp [Except.map]
      rw [hrest, ih hle, hused, Nat.add_assoc, or_iff_right hnone]
    · rw [hc] at hpart
      refine iff_of_true ⟨_, ofParts_cons_error hc⟩ ?_
      rcases hpart.1 rfl with hover | hbudget
      · exact .inl (.inl hover)
      · exact .inr (by omega)

theorem ofEntries_isInvalid {entries : List Command} (h : ∀ entry ∈ entries, entry.Entry)
    (faults : Faults) : (ofEntries entries faults).isInvalid = false := by
  match entries with
  | [] => rfl
  | [entry] =>
    rw [ofEntries]
    split
    · exact (h entry List.mem_cons_self).isInvalid
    · rfl
  | _ :: _ :: _ => rfl

/-- A line that lost no token is invalid just if its parts are rejected. -/
theorem parse_isInvalid (list : TokenList) : (parse list).isInvalid ↔ list.truncated ∨
    ∃ faults, ofParts 0 (Token.sections .list list.tokens) = .error faults := by
  unfold parse
  by_cases ht : list.truncated
  · simp [ht, isInvalid]
  · rw [if_neg ht, or_iff_right ht]
    rcases hp : ofParts 0 (Token.sections .list list.tokens) with faults | ⟨entries, faults⟩
    · exact iff_of_true rfl ⟨faults, rfl⟩
    · have hvalid := ofEntries_isInvalid (ofParts_ok (Nat.zero_le _) hp).entry faults
      simp [hvalid]

/-- The limits are exact. -/
theorem ofLine_isInvalid (line : String) :
    (ofLine line).isInvalid ↔ Token.OverLimit (Token.lex line.toList) := by
  rw [ofLine, parse_isInvalid, TokenList.ofLine, Token.OverLimit]
  simp only [decide_eq_true_eq]
  by_cases ht : maxTokens < (Token.lex line.toList).length
  · exact iff_of_true (.inl ht) (.inl ht)
  · rw [or_iff_right ht, or_iff_right ht, List.take_of_length_le (Nat.not_lt.1 ht),
      ofParts_error_iff (Nat.zero_le _), Nat.zero_add, flatten_parts]
    rw [exists_mem_parts (by simp), exists_mem_parts (by simp [maxStages])]
    simp only [PartOver, and_or_left, exists_or, or_assoc]
    rfl

theorem eq_invalid {command : Command} (h : command.isInvalid) :
    ∃ faults, command = .invalid faults := by
  cases command with
  | invalid faults => exact ⟨faults, rfl⟩
  | empty | simple | pipeline | list => cases h

end Command

/-! ## Rejection -/

namespace Shell

variable {σ : Type} (host : Host σ) (bound : Nat) (shell : Shell) (line : String)

variable {line} in
/-- An invalid line takes its place in the shell, with no message. -/
theorem trace_parseLine (h : (Command.ofLine line).isInvalid) (state : σ) :
    ∃ after, Action.trace host bound (shell.parseLine line) state =
      .pure { shell with tokens := .ofLine line, command := .ofLine line } after := by
  refine ⟨host.note (Command.ofLine line).dump (host.note (TokenList.ofLine line).dump state), ?_⟩
  have h : (Command.parse (TokenList.ofLine line)).isInvalid = true := h
  simp only [parseLine, Action.log, Behavior.note_bind, Behavior.done_bind, Action.trace_note, h]
  rfl

/-- A line is invalid just if it is over a limit. Then nothing of it runs: one message goes to the
user, the status is that of a failure, and the shell goes on as it was. -/
theorem runLine_overLimit (running : shell.running = true) (state : σ) :
    ((Command.ofLine line).isInvalid ↔ Token.OverLimit (Token.lex line.toList)) ∧
      ((Command.ofLine line).isInvalid → ∃ before message after,
        Action.trace host bound (shell.runLine line) state =
          ⟨[.asked before (.report .user message) ()], some (.returned (1,
            { shell with tokens := .ofLine line, command := .ofLine line }), after)⟩) := by
  refine ⟨Command.ofLine_isInvalid line, fun h => ?_⟩
  obtain ⟨faults, hf⟩ := Command.eq_invalid h
  obtain ⟨after, hp⟩ := trace_parseLine host bound shell h
    (host.note ("run line: " ++ Text.quote line) state)
  refine ⟨after, "invalid command: " ++ faults.text,
    (host.answer (.report .user ("invalid command: " ++ faults.text)) after).2, ?_⟩
  simp only [runLine, Action.log, Behavior.note_bind, Behavior.done_bind, Action.trace_note,
    Action.trace_bind, hp, Run.pure_bind, hf, Job.run, Action.trace_report]
  simp [Run.bind, Run.after, Run.pure, lineStatus, running, Command.isEmpty, notStarted]

/-- Three pipelines, none of them too long, with eighteen stages in all. -/
theorem runLine_overLimit_budget :
    let line := "ls|||||;|||||;|||||"
    let shell : Shell := { lastStatus := 3, background := [7] }
    shell.running = true ∧ (Command.ofLine line).isInvalid ∧ ∃ before message after,
      Action.trace Recorder.host 0 (shell.runLine line) {} =
        ⟨[.asked before (.report .user message) ()], some (.returned (1,
          { shell with tokens := .ofLine line, command := .ofLine line }), after)⟩ := by
  intro line shell
  have hi : (Command.ofLine line).isInvalid := by decide +kernel
  exact ⟨rfl, hi, (runLine_overLimit Recorder.host 0 shell line rfl {}).2 hi⟩

end Shell

end TinyShell
