import TinyShell.Proofs.Command.Limits

/-!
# The nodes of a parse

`Command.parse_allNodes`: every simple command in the tree of a line is what the parser makes of one
of the stages, and the faults of every other node are faults of such commands put together, or of
capacity. So what holds of all stages can be shown at all nodes, in one induction on the parts of
the line (`ofParts_allNodes`).
-/

namespace TinyShell

namespace Token

/-- What stands between separators is in the whole, and no separator. -/
theorem mem_of_mem_sections {separator : TokenKind} {tokens part : List Token}
    (h : part ∈ sections separator tokens) {token : Token} (ht : token ∈ part) :
    token ∈ tokens ∧ token.kind ≠ separator := by
  induction tokens generalizing part with
  | nil =>
    obtain rfl : part = [] := by simpa [sections] using h
    cases ht
  | cons first rest ih =>
    rw [sections] at h
    split at h
    · rcases List.mem_cons.1 h with rfl | h
      · cases ht
      · exact (ih h ht).imp (List.mem_cons_of_mem first) id
    · rename_i hne
      split at h
      · obtain rfl : part = [first] := by simpa using h
        obtain rfl := List.mem_singleton.1 ht
        exact ⟨List.mem_cons_self, hne⟩
      · rename_i section_ others heq
        rcases List.mem_cons.1 h with rfl | h
        · rcases List.mem_cons.1 ht with rfl | ht
          · exact ⟨List.mem_cons_self, hne⟩
          · exact (ih (by simp [heq]) ht).imp (List.mem_cons_of_mem first) id
        · exact (ih (by simp [heq, h]) ht).imp (List.mem_cons_of_mem first) id

/-- The stages of a line are made of its tokens, without those that separate them. -/
theorem mem_of_mem_parts {tokens stage : List Token} (h : stage ∈ (parts tokens).flatten)
    {token : Token} (ht : token ∈ stage) :
    token ∈ tokens ∧ token.kind ≠ .list ∧ token.kind ≠ .pipe := by
  rw [Command.flatten_parts, List.mem_flatMap] at h
  obtain ⟨part, hpart, hstage⟩ := h
  have hsections : stage ∈ sections .pipe part := by
    cases part with
    | nil => simp [Command.stagesOf] at hstage
    | cons => exact hstage
  obtain ⟨hmem, hpipe⟩ := mem_of_mem_sections hsections ht
  obtain ⟨hline, hlist⟩ := mem_of_mem_sections hpart hmem
  exact ⟨hline, hlist, hpipe⟩

end Token

namespace Command

/-- At every node of a tree: one property of its simple commands, and one of the faults of all other
nodes. -/
inductive AllNodes (onSimple : SimpleCommand → Prop) (onFaults : Faults → Prop) : Command → Prop
  | empty {faults : Faults} : onFaults faults → AllNodes onSimple onFaults (.empty faults)
  | invalid {faults : Faults} : onFaults faults → AllNodes onSimple onFaults (.invalid faults)
  | simple {command : SimpleCommand} : onSimple command →
    AllNodes onSimple onFaults (.simple command)
  | pipeline {stages : Pipeline} : (∀ stage ∈ stages.stages, onSimple stage) →
    onFaults stages.faults → AllNodes onSimple onFaults (.pipeline stages)
  | list {entries : List Command} {faults : Faults} :
    (∀ entry ∈ entries, AllNodes onSimple onFaults entry) → onFaults faults →
    AllNodes onSimple onFaults (.list entries faults)

/-- The property of faults passes from simple commands to the nodes above them. -/
structure Gathers (onSimple : SimpleCommand → Prop) (onFaults : Faults → Prop) : Prop where
  simple : ∀ command, onSimple command → onFaults command.faults
  union : ∀ a b, onFaults a → onFaults b → onFaults (a ∪ b)
  capacity : ∀ faults : Faults, (∀ fault ∈ faults, fault.isCapacity) → onFaults faults

section
variable {onSimple : SimpleCommand → Prop} {onFaults : Faults → Prop}
  (h : Gathers onSimple onFaults)
include h

theorem Gathers.empty : onFaults ∅ := h.capacity ∅ (by simp)

theorem Gathers.foldl {stages : List SimpleCommand} (hs : ∀ stage ∈ stages, onSimple stage)
    {start : Faults} (hstart : onFaults start) :
    onFaults (stages.foldl (fun faults stage => faults ∪ stage.faults) start) := by
  induction stages generalizing start with
  | nil => exact hstart
  | cons stage rest ih =>
    obtain ⟨hstage, hrest⟩ := List.forall_mem_cons.1 hs
    exact ih hrest (h.union _ _ hstart (h.simple _ hstage))

theorem AllNodes.faults {command : Command} (hc : command.AllNodes onSimple onFaults) :
    onFaults command.faults := by
  cases hc with
  | empty hf | invalid hf => exact hf
  | simple hs => exact h.simple _ hs
  | pipeline _ hf => exact hf
  | list _ hf => exact hf

theorem ofStages_allNodes {stages : List (List Token)}
    (hs : ∀ stage ∈ stages, onSimple (.parse stage)) :
    (ofStages stages).AllNodes onSimple onFaults := by
  unfold ofStages
  split
  · rename_i stage
    have hstage := hs stage List.mem_cons_self
    unfold ofStage
    split
    · exact .invalid (h.simple _ hstage)
    split
    · exact .empty (h.simple _ hstage)
    · exact .simple hstage
  · have hparsed : ∀ stage ∈ stages.map SimpleCommand.parse, onSimple stage := by
      intro stage hm
      obtain ⟨tokens, ht, rfl⟩ := List.mem_map.1 hm
      exact hs tokens ht
    have hfaults : onFaults (Pipeline.ofStages (stages.map .parse)).faults := by
      refine h.foldl hparsed ?_
      split
      · exact h.capacity _ (by simp [Fault.isCapacity])
      · exact h.empty
    unfold ofPipeline
    split
    · exact .invalid hfaults
    · exact .pipeline hparsed hfaults

theorem ofPart_allNodes (used : Nat) {part : List Token}
    (hs : ∀ stage ∈ stagesOf part, onSimple (.parse stage)) :
    (ofPart used part).1.AllNodes onSimple onFaults := by
  by_cases hne : part = []
  · subst hne
    exact .empty h.empty
  rcases Nat.lt_or_ge maxCommands (used + (stagesOf part).length) with hover | hle
  · rw [ofPart_over hne hover]
    refine .invalid (h.capacity _ fun fault hf => ?_)
    split at hf
    · rcases Faults.mem_insert.1 hf with hf | rfl
      · rw [Faults.mem_of.1 hf]
        rfl
      · rfl
    · rw [Faults.mem_of.1 hf]
      rfl
  · rw [ofPart_within hne hle]
    exact ofStages_allNodes h hs

theorem ofParts_allNodes (used : Nat) {parts : List (List Token)}
    (hs : ∀ stage ∈ parts.flatMap stagesOf, onSimple (.parse stage)) :
    match ofParts used parts with
    | .ok (entries, faults) => (∀ entry ∈ entries, entry.AllNodes onSimple onFaults) ∧
        onFaults faults
    | .error faults => onFaults faults := by
  induction parts generalizing used with
  | nil => exact ⟨by simp, h.empty⟩
  | cons part rest ih =>
    simp only [List.flatMap_cons, List.mem_append, or_imp, forall_and] at hs
    have hpart := ofPart_allNodes h used hs.1
    cases hc : (ofPart used part).1.faults.overCapacity with
    | true =>
      rw [ofParts_cons_error hc]
      exact hpart.faults h
    | false =>
      have hrest := ih (ofPart used part).2 hs.2
      rw [ofParts_cons hc]
      cases ho : ofParts (ofPart used part).2 rest with
      | error faults =>
        rw [ho] at hrest
        exact hrest
      | ok found =>
        rw [ho] at hrest
        obtain ⟨hentries, hfaults⟩ := hrest
        refine ⟨fun entry hm => ?_, h.union _ _ (hpart.faults h) hfaults⟩
        split at hm
        · exact hentries entry hm
        · rcases List.mem_cons.1 hm with rfl | hm
          · exact hpart
          · exact hentries entry hm

omit h in
theorem ofEntries_allNodes {entries : List Command} {faults : Faults}
    (he : ∀ entry ∈ entries, entry.AllNodes onSimple onFaults) (hf : onFaults faults) :
    (ofEntries entries faults).AllNodes onSimple onFaults := by
  unfold ofEntries
  split
  · exact .empty hf
  · split
    · exact he _ List.mem_cons_self
    · exact .list he hf
  · exact .list he hf

/-- What holds of all stages of a line holds at all nodes of its tree. -/
theorem parse_allNodes {list : TokenList}
    (hs : ∀ stage ∈ (Token.parts list.tokens).flatten, onSimple (.parse stage)) :
    (parse list).AllNodes onSimple onFaults := by
  unfold parse
  split
  · exact .invalid (h.capacity _ (by simp [Fault.isCapacity]))
  · rw [flatten_parts] at hs
    have hparts := ofParts_allNodes h 0 hs
    cases ho : ofParts 0 (Token.sections .list list.tokens) with
    | error faults =>
      rw [ho] at hparts
      exact .invalid hparts
    | ok found =>
      rw [ho] at hparts
      exact ofEntries_allNodes hparts.1 hparts.2

end

end Command

end TinyShell
