import TinyShell.Proofs.Command.Limits

/-!
# The faults of a line

`Command.parse_faults_exact`: what the parser finds wrong with a line is exactly what it finds wrong
with its stages, also with those that are no command and leave nothing else behind. A line that is
over a limit has the faults of the first part that is, and none of the others.

The parts are read from left to right, and what is known between two of them is that none of those
before was over a limit (`NoneOver`), so the proof is one induction on the parts to come
(`ofParts_outcome`).
-/

namespace TinyShell.Command

/-! ## The first part over a limit -/

/-- The part is over a limit, those before it being `before`: the line has too many stages by its
end, or it has too many itself, or one of its stages has too many words. -/
def OverAt (before : List (List (List Token))) (part : List (List Token)) : Prop :=
  maxCommands < (before ++ [part]).flatten.length ∨ maxStages < part.length ∨
    ∃ stage ∈ part, maxArgs < (SimpleCommand.leadingWords stage).length

/-- No part is over a limit. -/
def NoneOver (parts : List (List (List Token))) : Prop :=
  ∀ before part, before ++ [part] <+: parts → ¬OverAt before part

/-- The first part over a limit, and those before it. -/
structure FirstOver (parts before : List (List (List Token))) (part : List (List Token)) :
    Prop where
  reached : before ++ [part] <+: parts
  limit : OverAt before part
  first : NoneOver before

theorem noneOver_nil : NoneOver [] := fun before part h => by simp at h

theorem NoneOver.snoc {before : List (List (List Token))} {part : List (List Token)}
    (h : NoneOver before) (hp : ¬OverAt before part) : NoneOver (before ++ [part]) := by
  intro earlier other hpre
  rcases List.prefix_concat_iff.1 hpre with heq | hpre
  · obtain ⟨rfl, heq⟩ := List.append_inj' heq rfl
    obtain rfl : other = part := by simpa using heq
    exact hp
  · exact h earlier other hpre

/-- There is only one first part. -/
theorem FirstOver.unique {parts before before' : List (List (List Token))}
    {part part' : List (List Token)} (h : FirstOver parts before part)
    (h' : FirstOver parts before' part') : before = before' ∧ part = part' := by
  have hsame {before before' : List (List (List Token))} {part part' : List (List Token)}
      (ho : OverAt before part) (hn : NoneOver before')
      (hpre : before ++ [part] <+: before' ++ [part']) : before = before' ∧ part = part' := by
    rcases List.prefix_concat_iff.1 hpre with heq | hpre
    · obtain ⟨rfl, heq⟩ := List.append_inj' heq rfl
      exact ⟨rfl, by simpa using heq⟩
    · exact absurd ho (hn _ _ hpre)
  rcases List.prefix_or_prefix_of_prefix h.reached h'.reached with hpre | hpre
  · exact hsame h.limit h'.first hpre
  · exact (hsame h'.limit h.first hpre).imp Eq.symm Eq.symm

/-! ## Faults -/

/-- The faults of all these stages. -/
def stageFaults (stages : List (List Token)) : Faults :=
  stages.foldl (fun faults stage => faults ∪ (SimpleCommand.parse stage).faults) ∅

/-- The fault of a part with too many stages. -/
def lengthFaults (part : List (List Token)) : Faults :=
  if maxStages < part.length then .of .pipelineTooLong else ∅

/-- The faults of a part over a limit, those before it being `before`. -/
def overFaults (before : List (List (List Token))) (part : List (List Token)) : Faults :=
  (if maxCommands < (before ++ [part]).flatten.length then .of .tooManyCommands
    else stageFaults part) ∪ lengthFaults part

theorem mem_stageFaults {stages : List (List Token)} {fault : Fault} :
    fault ∈ stageFaults stages ↔ ∃ stage ∈ stages, fault ∈ (SimpleCommand.parse stage).faults := by
  rw [stageFaults, Faults.mem_foldl_union]
  simp

theorem stageFaults_append (first second : List (List Token)) :
    stageFaults (first ++ second) = stageFaults first ∪ stageFaults second :=
  Faults.ext fun fault => by simp [mem_stageFaults, or_and_right, exists_or]

theorem mem_lengthFaults {part : List (List Token)} {fault : Fault} :
    fault ∈ lengthFaults part ↔ maxStages < part.length ∧ fault = .pipelineTooLong := by
  unfold lengthFaults
  split <;> simp [*]

theorem ofStages_faults (part : List (List Token)) :
    (ofStages part).faults = stageFaults part ∪ lengthFaults part :=
  Faults.ext fun fault => by
    rw [mem_ofStages_faults, Faults.mem_union, mem_stageFaults, mem_lengthFaults, or_comm]

theorem overBudget_faults (part : List (List Token)) :
    (overBudget part.length).faults = .of .tooManyCommands ∪ lengthFaults part := by
  unfold overBudget lengthFaults
  split
  · rfl
  · exact Faults.ext fun fault => by simp [faults]

/-! ## Lines -/

/-- The parts that are not empty, each as its stages. -/
def nonEmpty (sections : List (List Token)) : List (List (List Token)) :=
  (sections.filter (· ≠ [])).map stagesOf

theorem nonEmpty_cons {part : List Token} (h : part ≠ []) (rest : List (List Token)) :
    nonEmpty (part :: rest) = stagesOf part :: nonEmpty rest := by
  simp [nonEmpty, h]

theorem nonEmpty_cons_nil (rest : List (List Token)) : nonEmpty ([] :: rest) = nonEmpty rest :=
  rfl

/-- An empty part adds nothing. -/
theorem ofParts_nil_cons (used : Nat) (rest : List (List Token)) :
    ofParts used ([] :: rest) = ofParts used rest := by
  have hskip : ofParts used ([] :: rest) =
      (ofParts used rest).map fun found => (found.1, ∅ ∪ found.2) :=
    ofParts_cons Faults.overCapacity_empty
  rw [hskip]
  rcases ofParts used rest with faults | ⟨entries, faults⟩
  · rfl
  · exact congrArg (fun all => Except.ok (entries, all)) faults.empty_union

/-- A part over a limit has its faults, and what is left of the line is not looked at. -/
theorem ofParts_over {before : List (List (List Token))} {part : List Token} (hne : part ≠ [])
    (h : OverAt before (stagesOf part)) (rest : List (List Token)) :
    ofParts before.flatten.length (part :: rest) = .error (overFaults before (stagesOf part)) := by
  have hlength : (before ++ [stagesOf part]).flatten.length =
      before.flatten.length + (stagesOf part).length := by simp
  rcases Nat.lt_or_ge maxCommands (before.flatten.length + (stagesOf part).length) with hover | hle
  · have hpart := ofPart_over hne hover
    rw [ofParts_cons_error (by rw [hpart]; exact overBudget_overCapacity _), hpart,
      overBudget_faults, overFaults, if_pos (by omega)]
  · have hpart := ofPart_within hne hle
    have hcapacity : (ofStages (stagesOf part)).faults.overCapacity :=
      (ofStages_overCapacity _).2 (h.resolve_left (by omega)).symm
    rw [ofParts_cons_error (by rw [hpart]; exact hcapacity), hpart, ofStages_faults, overFaults,
      if_neg (by omega)]

/-- A part within the limits adds its faults to those of the rest. -/
theorem ofParts_notOver {before : List (List (List Token))} {part : List Token} (hne : part ≠ [])
    (h : ¬OverAt before (stagesOf part)) (rest : List (List Token)) :
    ofParts before.flatten.length (part :: rest) =
      (ofParts (before ++ [stagesOf part]).flatten.length rest).map fun found =>
        (if (ofStages (stagesOf part)).isEmpty then found.1
          else ofStages (stagesOf part) :: found.1, stageFaults (stagesOf part) ∪ found.2) := by
  obtain ⟨hbudget, hown⟩ := not_or.1 h
  have hlength : (before ++ [stagesOf part]).flatten.length =
      before.flatten.length + (stagesOf part).length := by simp
  have hpart := ofPart_within hne (Nat.not_lt.1 (hlength ▸ hbudget))
  have hcapacity : (ofPart before.flatten.length part).1.faults.overCapacity = false := by
    rw [hpart]
    exact Bool.eq_false_iff.2 (mt (ofStages_overCapacity _).1 fun ho => hown ho.symm)
  have hfaults : (ofStages (stagesOf part)).faults = stageFaults (stagesOf part) := by
    refine Faults.ext fun fault => ?_
    rw [ofStages_faults, Faults.mem_union, mem_lengthFaults]
    exact or_iff_left fun hl => hown (.inl hl.1)
  rw [ofParts_cons hcapacity, hpart, hlength]
  simp only [hfaults]

/-- The parts of a line come to the faults of their stages, or to those of the first part over a
limit. None of the parts `before` them was over one. -/
theorem ofParts_outcome {before : List (List (List Token))} (h : NoneOver before)
    (rest : List (List Token)) :
    match ofParts before.flatten.length rest with
    | .ok (_, faults) => NoneOver (before ++ nonEmpty rest) ∧
        faults = stageFaults (nonEmpty rest).flatten
    | .error faults => ∃ earlier part, FirstOver (before ++ nonEmpty rest) earlier part ∧
        faults = overFaults earlier part := by
  induction rest generalizing before with
  | nil => exact ⟨by simpa [nonEmpty] using h, rfl⟩
  | cons part rest ih =>
    by_cases hne : part = []
    · subst hne
      rw [ofParts_nil_cons, nonEmpty_cons_nil]
      exact ih h
    have hsplit : before ++ nonEmpty (part :: rest) =
        (before ++ [stagesOf part]) ++ nonEmpty rest := by
      rw [nonEmpty_cons hne, List.append_assoc, List.singleton_append]
    by_cases hover : OverAt before (stagesOf part)
    · rw [ofParts_over hne hover]
      exact ⟨before, _, ⟨hsplit ▸ List.prefix_append _ _, hover, h⟩, rfl⟩
    · have hrest := ih (h.snoc hover)
      rw [ofParts_notOver hne hover, hsplit, nonEmpty_cons hne, List.flatten_cons,
        stageFaults_append]
      rcases ho : ofParts (before ++ [stagesOf part]).flatten.length rest with
        faults | ⟨entries, faults⟩ <;> rw [ho] at hrest
      · exact hrest
      · exact ⟨hrest.1, by rw [← hrest.2]⟩

theorem ofEntries_faults (entries : List Command) (faults : Faults) :
    (ofEntries entries faults).faults = faults := by
  match entries with
  | [] => rfl
  | [entry] =>
    rw [ofEntries]
    split
    · exact Eq.symm ‹_›
    · rfl
  | _ :: _ :: _ => rfl

/-- The faults of a line are those of its stages, and none else, unless the line is over a limit.
Then it is invalid, and has the faults of the first part that is over one. -/
theorem parse_faults_exact (list : TokenList) :
    (list.truncated → parse list = .invalid (.of .tooManyTokens)) ∧
    (list.truncated = false →
      ((parse list).isInvalid = false →
        (parse list).faults = stageFaults (Token.parts list.tokens).flatten) ∧
      ((parse list).isInvalid →
        ∃ before part, FirstOver (Token.parts list.tokens) before part) ∧
      ∀ before part, FirstOver (Token.parts list.tokens) before part →
        parse list = .invalid (overFaults before part)) := by
  refine ⟨fun ht => by rw [parse, if_pos ht], fun ht => ?_⟩
  have hparts : Token.parts list.tokens = nonEmpty (Token.sections .list list.tokens) :=
    parts_eq list.tokens
  have houtcome := ofParts_outcome noneOver_nil (Token.sections .list list.tokens)
  rw [List.nil_append, ← hparts, List.flatten_nil, List.length_nil] at houtcome
  rw [parse, if_neg (by simp [ht])]
  rcases ho : ofParts 0 (Token.sections .list list.tokens) with faults | ⟨entries, faults⟩ <;>
    rw [ho] at houtcome
  · obtain ⟨earlier, last, hfirst, rfl⟩ := houtcome
    refine ⟨nofun, fun _ => ⟨earlier, last, hfirst⟩, fun before part h => ?_⟩
    obtain ⟨rfl, rfl⟩ := hfirst.unique h
    rfl
  · have hvalid := ofEntries_isInvalid (ofParts_ok (Nat.zero_le _) ho).entry faults
    refine ⟨fun _ => (ofEntries_faults entries faults).trans houtcome.2, fun hi => ?_,
      fun before part h => absurd h.limit (houtcome.1 _ _ h.reached)⟩
    simp [hvalid] at hi

/-- A command without words that leaves its faults behind, and a line whose second part is over two
limits. -/
theorem parse_faults_exact_nameless :
    let nameless := TokenList.ofLine "ls;; > out extra"
    let long := TokenList.ofLine "cat <; a|b|c|d|e|f|g|h|i|j|k|l|m|n|o|p; ls"
    (nameless.truncated = false ∧ (parse nameless).isInvalid = false ∧
      (parse nameless).faults = stageFaults (Token.parts nameless.tokens).flatten ∧
      (parse nameless).faults = (Faults.of .argumentAfterRedirect).insert .syntaxError) ∧
    (long.truncated = false ∧ (parse long).isInvalid ∧
      ∃ before part, FirstOver (Token.parts long.tokens) before part ∧
        parse long = .invalid (overFaults before part)) := by
  intro nameless long
  have hplain : nameless.truncated = false := by decide +kernel
  have hvalid : (parse nameless).isInvalid = false := by decide +kernel
  have hlong : long.truncated = false := by decide +kernel
  have hinvalid : (parse long).isInvalid := by decide +kernel
  obtain ⟨before, part, hfirst⟩ := ((parse_faults_exact long).2 hlong).2.1 hinvalid
  exact ⟨⟨hplain, hvalid, ((parse_faults_exact nameless).2 hplain).1 hvalid, by decide +kernel⟩,
    hlong, hinvalid, before, part, hfirst,
    ((parse_faults_exact long).2 hlong).2.2 before part hfirst⟩

end TinyShell.Command
