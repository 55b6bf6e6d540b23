import TinyShell.Command.Parser

/-!
# Every parse is well formed

`Command.parse_wellFormed`: whatever the tokens are, the command has the form that running it relies
on. A command that runs has lost no part of the line, each of its simple commands is within the
limits and redirects each standard descriptor in the way that suits it, and all of them together
are within the limit of a line.

The proof goes up with the parser: the tail of a stage (`parseTail_tailOf`), a stage
(`SimpleCommand.parse_shaped`), a part (`ofStages_part`, `ofPart_part`), the parts of a line
(`ofParts_ok`, `ofParts_error`), and the collapse of a list of one (`ofEntries_wellFormed`).
-/

namespace TinyShell

/-! ## Capacity faults -/

namespace Faults

theorem overCapacity_iff {faults : Faults} :
    faults.overCapacity ↔ ∃ fault ∈ faults, fault.isCapacity := by
  simp only [overCapacity, List.any_eq_true, mem_toList]

@[simp]
theorem overCapacity_empty : (∅ : Faults).overCapacity = false := rfl

@[simp]
theorem overCapacity_of (fault : Fault) : (of fault).overCapacity = fault.isCapacity := by
  cases fault <;> rfl

@[simp]
theorem overCapacity_union (a b : Faults) :
    (a ∪ b).overCapacity = (a.overCapacity || b.overCapacity) := by
  rw [Bool.eq_iff_iff, Bool.or_eq_true, overCapacity_iff, overCapacity_iff, overCapacity_iff]
  simp only [mem_union, or_and_right, exists_or]

@[simp]
theorem overCapacity_insert (faults : Faults) (fault : Fault) :
    (faults.insert fault).overCapacity = (faults.overCapacity || fault.isCapacity) := by
  rw [insert, overCapacity_union, overCapacity_of]

theorem empty_union (faults : Faults) : ∅ ∪ faults = faults := ext fun fault => by simp

theorem union_empty (faults : Faults) : faults ∪ ∅ = faults := ext fun fault => by simp

theorem union_assoc (a b c : Faults) : a ∪ b ∪ c = a ∪ (b ∪ c) :=
  ext fun fault => by simp [or_assoc]

/-- Faults added up: those at the start and those of each summand. -/
theorem mem_foldl_union {α : Type} (f : α → Faults) (items : List α) (start : Faults)
    {fault : Fault} : fault ∈ items.foldl (fun faults item => faults ∪ f item) start ↔
      fault ∈ start ∨ ∃ item ∈ items, fault ∈ f item := by
  induction items generalizing start with
  | nil => simp
  | cons item rest ih => rw [List.foldl_cons, ih]; simp [or_assoc]

end Faults

/-! ## The form of commands -/

/-- A redirection of one descriptor, to a file and of one of these kinds, or none at all. -/
structure Redirection.Shaped (redirection : Redirection) (fd : Descriptor)
    (kinds : List RedirKind) : Prop where
  source : redirection.source = fd
  target : redirection.target = .none
  path : redirection.path.isSome ↔ redirection.kind ≠ .unset
  kind : redirection.kind = .unset ∨ redirection.kind ∈ kinds

/-- Input is read, output written, and the error channel left alone. -/
structure Slots.Shaped (slots : Slots) : Prop where
  input : slots.input.Shaped 0 [.input]
  output : slots.output.Shaped 1 [.output, .append]
  error : slots.error.Shaped 2 []

/-- A simple command that can run: no part of it was dropped. -/
structure SimpleCommand.Shaped (command : SimpleCommand) : Prop where
  argc : command.argc ≤ maxArgs
  slots : command.slots.Shaped
  faults : command.faults.overCapacity = false

/-- A pipeline that can run; its stages may be without words. -/
structure Pipeline.Shaped (pipeline : Pipeline) : Prop where
  stages : ∀ stage ∈ pipeline.stages, stage.Shaped
  two_le : 2 ≤ pipeline.length
  length_le : pipeline.length ≤ maxStages
  faults : ∀ fault, fault ∈ pipeline.faults ↔ ∃ stage ∈ pipeline.stages, fault ∈ stage.faults
  capacity : pipeline.faults.overCapacity = false

namespace Command

/-- What a list consists of. -/
inductive Entry : Command → Prop
  | simple {command : SimpleCommand} : command.argv ≠ [] → command.Shaped → Entry (.simple command)
  | pipeline {pipeline : Pipeline} : pipeline.Shaped → Entry (.pipeline pipeline)

/-- The form of parsed lines. -/
inductive WellFormed : Command → Prop
  | empty {faults : Faults} : faults.overCapacity = false → WellFormed (.empty faults)
  | invalid {faults : Faults} : faults.overCapacity → WellFormed (.invalid faults)
  | entry {command : Command} : command.Entry → WellFormed command
  /-- A list has all faults of its entries; a single entry is a list only if it has more. -/
  | list {entries : List Command} {faults : Faults} : entries ≠ [] →
    (∀ entry ∈ entries, entry.Entry) →
    (∀ entry ∈ entries, ∀ fault ∈ entry.faults, fault ∈ faults) →
    (∀ entry, entries = [entry] → entry.faults ≠ faults) → faults.overCapacity = false →
    WellFormed (.list entries faults)

mutual

/-- The simple commands of a tree. -/
def commands : Command → List SimpleCommand
  | .empty _ => []
  | .invalid _ => []
  | .simple command => [command]
  | .pipeline stages => stages.stages
  | .list entries _ => allCommands entries

def allCommands : List Command → List SimpleCommand
  | [] => []
  | entry :: rest => commands entry ++ allCommands rest

end

theorem allCommands_eq (entries : List Command) :
    allCommands entries = entries.flatMap commands := by
  induction entries with
  | nil => rfl
  | cons entry rest ih => rw [allCommands, ih, List.flatMap_cons]

theorem Entry.overCapacity {command : Command} (h : command.Entry) :
    command.faults.overCapacity = false := by
  cases h with
  | simple _ h => exact h.faults
  | pipeline h => exact h.capacity

theorem Entry.isEmpty {command : Command} (h : command.Entry) : command.isEmpty = false := by
  cases h <;> rfl

theorem Entry.isInvalid {command : Command} (h : command.Entry) : command.isInvalid = false := by
  cases h <;> rfl

theorem Entry.shaped {entry : Command} (h : entry.Entry) :
    ∀ command ∈ entry.commands, command.Shaped := by
  cases h with
  | simple _ h =>
    intro command hc
    rw [commands, List.mem_singleton] at hc
    exact hc ▸ h
  | pipeline h => exact h.stages

theorem WellFormed.shaped {command : Command} (h : command.WellFormed) :
    ∀ simple ∈ command.commands, simple.Shaped := by
  cases h with
  | empty | invalid => simp [commands]
  | entry h => exact h.shaped
  | list _ he _ _ _ =>
    intro simple hs
    rw [commands, allCommands_eq, List.mem_flatMap] at hs
    obtain ⟨entry, hm, hs⟩ := hs
    exact (he entry hm).shaped simple hs

end Command

/-! ## Stages -/

namespace SimpleCommand

theorem slots_none_shaped : ({} : Slots).Shaped :=
  ⟨⟨rfl, rfl, by decide, .inl rfl⟩, ⟨rfl, rfl, by decide, .inl rfl⟩,
    ⟨rfl, rfl, by decide, .inl rfl⟩⟩

theorem redirect_shaped {slots : Slots} (h : slots.Shaped) (kind : RedirKind) (path : String) :
    (slots.redirect kind path).Shaped := by
  cases kind with
  | input => exact ⟨⟨rfl, rfl, by simp [Slots.redirect, Redirection.toPath], .inr (by
      simp [Slots.redirect, Redirection.toPath])⟩, h.output, h.error⟩
  | output => exact ⟨h.input, ⟨rfl, rfl, by simp [Slots.redirect, Redirection.toPath], .inr (by
      simp [Slots.redirect, Redirection.toPath])⟩, h.error⟩
  | append => exact ⟨h.input, ⟨rfl, rfl, by simp [Slots.redirect, Redirection.toPath], .inr (by
      simp [Slots.redirect, Redirection.toPath])⟩, h.error⟩
  | unset => exact h

/-- What a tail changes: slots keep their form, the words stay, and no fault is one of capacity. -/
structure TailOf (before after : SimpleCommand) : Prop where
  argv : after.argv = before.argv
  slots : before.slots.Shaped → after.slots.Shaped
  faults : after.faults.overCapacity = before.faults.overCapacity

theorem TailOf.trans {first second third : SimpleCommand} (h : TailOf first second)
    (h' : TailOf second third) : TailOf first third :=
  ⟨h'.argv.trans h.argv, fun hs => h'.slots (h.slots hs), h'.faults.trans h.faults⟩

theorem TailOf.withFault (command : SimpleCommand) {fault : Fault}
    (h : fault.isCapacity = false) : TailOf command (command.withFault fault) :=
  ⟨rfl, id, by simp [SimpleCommand.withFault, h]⟩

theorem parseTail_tailOf (command : SimpleCommand) (tokens : List Token) :
    TailOf command (parseTail command tokens) := by
  fun_induction parseTail command tokens with
  | case1 command => exact ⟨rfl, id, rfl⟩
  | case2 command token rest _ ih =>
    have h : TailOf command { command with background := true } := ⟨rfl, id, rfl⟩
    exact h.trans ih
  | case3 command => exact (TailOf.withFault command rfl).trans (.withFault _ rfl)
  | case4 command _ _ _ _ _ ih => exact (TailOf.withFault command rfl).trans ih
  | case5 command => exact .withFault command rfl
  | case6 command token kind destination rest _ _ _ _ ih =>
    have h : TailOf command
        { command with slots := command.slots.redirect kind destination.value } :=
      ⟨rfl, fun hs => redirect_shaped hs kind destination.value, rfl⟩
    exact h.trans ih
  | case7 command => exact .withFault command rfl

/-- The words that a stage starts with. -/
def leadingWords (tokens : List Token) : List Token := tokens.takeWhile Token.isWord

theorem parse_within {tokens : List Token} (h : (leadingWords tokens).length ≤ maxArgs) :
    parse tokens = parseTail { argv := (leadingWords tokens).map Token.value }
      (tokens.dropWhile Token.isWord) :=
  if_pos (by simpa [leadingWords] using h)

theorem parse_beyond {tokens : List Token} (h : maxArgs < (leadingWords tokens).length) :
    parse tokens = withFault { argv := ((leadingWords tokens).map Token.value).take maxArgs }
      .tooManyArguments :=
  if_neg (by simpa [leadingWords] using h)

theorem parse_of_le {tokens : List Token} (h : (leadingWords tokens).length ≤ maxArgs) :
    TailOf { argv := (leadingWords tokens).map Token.value } (parse tokens) := by
  rw [parse_within h]
  exact parseTail_tailOf _ _

theorem parse_of_lt {tokens : List Token} (h : maxArgs < (leadingWords tokens).length) :
    (parse tokens).faults = .of .tooManyArguments := by
  rw [parse_beyond h]
  exact Faults.ext fun fault => by simp [withFault]

/-- A stage is over capacity just if it has too many words. -/
theorem parse_overCapacity (tokens : List Token) :
    (parse tokens).faults.overCapacity ↔ maxArgs < (leadingWords tokens).length := by
  rcases Nat.lt_or_ge maxArgs (leadingWords tokens).length with h | h
  · simp [parse_of_lt h, h, Fault.isCapacity]
  · rw [(parse_of_le h).faults]
    simp [Nat.not_lt.2 h]

theorem parse_shaped {tokens : List Token}
    (h : (parse tokens).faults.overCapacity = false) : (parse tokens).Shaped := by
  have hle : (leadingWords tokens).length ≤ maxArgs := by
    rw [← Nat.not_lt, ← parse_overCapacity, h]
    exact Bool.false_ne_true
  have htail := parse_of_le hle
  refine ⟨?_, htail.slots slots_none_shaped, h⟩
  rw [argc, htail.argv, List.length_map]
  exact hle

end SimpleCommand

/-! ## Parts -/

theorem Pipeline.mem_ofStages {stages : List SimpleCommand} {fault : Fault} :
    fault ∈ (Pipeline.ofStages stages).faults ↔
      (maxStages < stages.length ∧ fault = .pipelineTooLong) ∨
        ∃ stage ∈ stages, fault ∈ stage.faults := by
  rw [Pipeline.ofStages, Faults.mem_foldl_union]
  by_cases h : maxStages < stages.length <;> simp [h]

/-- A pipeline is over capacity if it is too long, or one of its stages is. -/
theorem Pipeline.ofStages_overCapacity (stages : List SimpleCommand) :
    (Pipeline.ofStages stages).faults.overCapacity ↔
      maxStages < stages.length ∨ ∃ stage ∈ stages, stage.faults.overCapacity := by
  simp only [Faults.overCapacity_iff, Pipeline.mem_ofStages]
  constructor
  · rintro ⟨fault, ⟨hl, -⟩ | ⟨stage, hs, hf⟩, hc⟩
    · exact .inl hl
    · exact .inr ⟨stage, hs, fault, hf, hc⟩
  · rintro (hl | ⟨stage, hs, fault, hf, hc⟩)
    · exact ⟨.pipelineTooLong, .inl ⟨hl, rfl⟩, rfl⟩
    · exact ⟨fault, .inr ⟨stage, hs, hf⟩, hc⟩

namespace Command

/-- What a part comes to: nothing, something that runs, or a fault of capacity. It never holds more
simple commands than it has stages. -/
inductive Part (stages : Nat) : Command → Prop
  | empty {faults : Faults} : faults.overCapacity = false → Part stages (.empty faults)
  | invalid {faults : Faults} : faults.overCapacity → Part stages (.invalid faults)
  | entry {command : Command} : command.Entry → command.commands.length ≤ stages →
    Part stages command

theorem ofStage_part (tokens : List Token) : Part 1 (ofStage (.parse tokens)) := by
  unfold ofStage
  split
  · exact .invalid ‹_›
  · rename_i h
    have h : (SimpleCommand.parse tokens).faults.overCapacity = false := by simpa using h
    split
    · exact .empty h
    · rename_i hne
      have hne : (SimpleCommand.parse tokens).argv ≠ [] := by
        simpa [SimpleCommand.isEmpty] using hne
      exact .entry (.simple hne (SimpleCommand.parse_shaped h)) (by simp [commands])

theorem ofPipeline_part {parts : List (List Token)} (h : 2 ≤ parts.length) :
    Part parts.length (ofPipeline (.ofStages (parts.map .parse))) := by
  unfold ofPipeline
  split
  · exact .invalid ‹_›
  · rename_i hc
    obtain ⟨hlen, hstages⟩ := not_or.1 (mt (Pipeline.ofStages_overCapacity _).2 hc)
    refine .entry (.pipeline ⟨fun stage hs => ?_, ?_, ?_, fun fault => ?_, by simpa using hc⟩) ?_
    · obtain ⟨tokens, -, rfl⟩ := List.mem_map.1 hs
      refine SimpleCommand.parse_shaped ?_
      simpa using fun hf => hstages ⟨_, hs, hf⟩
    · simpa [Pipeline.length, Pipeline.ofStages] using h
    · simpa [Pipeline.length, Pipeline.ofStages] using hlen
    · rw [Pipeline.mem_ofStages]
      exact or_iff_right fun h => hlen h.1
    · simp [commands, Pipeline.ofStages]

theorem ofStages_part {parts : List (List Token)} (h : parts ≠ []) :
    Part parts.length (ofStages parts) := by
  match parts, h with
  | [tokens], _ => exact ofStage_part tokens
  | _ :: _ :: _, _ => exact ofPipeline_part (by simp)

theorem sections_ne_nil (separator : TokenKind) (tokens : List Token) :
    Token.sections separator tokens ≠ [] := by
  rcases tokens with _ | ⟨token, rest⟩
  · simp [Token.sections]
  · rw [Token.sections]
    split
    · simp
    · split <;> simp

/-- The stages of a part; an empty part has none. -/
def stagesOf : List Token → List (List Token)
  | [] => []
  | part => Token.sections .pipe part

theorem ofPart_nil (used : Nat) : ofPart used [] = (.empty ∅, used) := rfl

theorem ofPart_over {used : Nat} {part : List Token} (hne : part ≠ [])
    (h : maxCommands < used + (stagesOf part).length) :
    ofPart used part = (overBudget (stagesOf part).length, used) := by
  rcases part with _ | ⟨token, rest⟩
  · exact absurd rfl hne
  · simp only [stagesOf] at h ⊢
    simp only [ofPart, if_pos h]

theorem ofPart_within {used : Nat} {part : List Token} (hne : part ≠ [])
    (h : used + (stagesOf part).length ≤ maxCommands) :
    ofPart used part = (ofStages (stagesOf part), used + (stagesOf part).length) := by
  rcases part with _ | ⟨token, rest⟩
  · exact absurd rfl hne
  · simp only [stagesOf] at h ⊢
    simp only [ofPart, if_neg (Nat.not_lt.2 h)]

theorem overBudget_overCapacity (stages : Nat) : (overBudget stages).faults.overCapacity := by
  unfold overBudget
  split <;> simp [faults, Fault.isCapacity]

/-- A part either is over capacity, or takes its stages out of the budget of the line. -/
theorem ofPart_part {used : Nat} (hu : used ≤ maxCommands) (part : List Token)
    (h : (ofPart used part).1.faults.overCapacity = false) :
    (ofPart used part).2 = used + (stagesOf part).length ∧
      (ofPart used part).2 ≤ maxCommands ∧ Part (stagesOf part).length (ofPart used part).1 := by
  by_cases hne : part = []
  · subst hne
    exact ⟨rfl, hu, .empty rfl⟩
  rcases Nat.lt_or_ge maxCommands (used + (stagesOf part).length) with hover | hle
  · rw [ofPart_over hne hover, overBudget_overCapacity] at h
    cases h
  · rw [ofPart_within hne hle]
    refine ⟨rfl, hle, ofStages_part ?_⟩
    rcases part with _ | ⟨token, rest⟩
    · exact absurd rfl hne
    · exact sections_ne_nil _ _

/-! ## Lines -/

theorem ofParts_cons_error {used : Nat} {part : List Token} {parts : List (List Token)}
    (h : (ofPart used part).1.faults.overCapacity) :
    ofParts used (part :: parts) = .error (ofPart used part).1.faults := by
  simp only [ofParts, if_pos h]

theorem ofParts_cons {used : Nat} {part : List Token} {parts : List (List Token)}
    (h : (ofPart used part).1.faults.overCapacity = false) :
    ofParts used (part :: parts) =
      (ofParts (ofPart used part).2 parts).map fun rest =>
        (if (ofPart used part).1.isEmpty then rest.1 else (ofPart used part).1 :: rest.1,
          (ofPart used part).1.faults ∪ rest.2) := by
  simp only [ofParts, h, Bool.false_eq_true, if_false]
  rcases ofParts (ofPart used part).2 parts with faults | ⟨commands, faults⟩ <;> rfl

/-- The parts of a line within all limits are the first part, and the others with what it left of
the budget. -/
theorem ofParts_cons_ok {used : Nat} {part : List Token} {parts : List (List Token)}
    {entries : List Command} {faults : Faults}
    (h : ofParts used (part :: parts) = .ok (entries, faults)) :
    (ofPart used part).1.faults.overCapacity = false ∧
      ∃ rest others, ofParts (ofPart used part).2 parts = .ok (rest, others) ∧
        entries = (if (ofPart used part).1.isEmpty then rest else (ofPart used part).1 :: rest) ∧
        faults = (ofPart used part).1.faults ∪ others := by
  rcases hc : (ofPart used part).1.faults.overCapacity with _ | _
  · rw [ofParts_cons hc] at h
    rcases hr : ofParts (ofPart used part).2 parts with others | ⟨rest, others⟩
    · rw [hr] at h
      cases h
    · rw [hr] at h
      cases h
      exact ⟨rfl, rest, others, rfl, rfl, rfl⟩
  · rw [ofParts_cons_error hc] at h
    cases h

theorem ofParts_error {used : Nat} {parts : List (List Token)} {faults : Faults}
    (h : ofParts used parts = .error faults) : faults.overCapacity := by
  induction parts generalizing used with
  | nil => cases h
  | cons part parts ih =>
    rcases hc : (ofPart used part).1.faults.overCapacity with _ | _
    · rw [ofParts_cons hc] at h
      rcases hr : ofParts (ofPart used part).2 parts with faults' | rest
      · rw [hr] at h
        cases h
        exact ih hr
      · rw [hr] at h
        cases h
    · rw [ofParts_cons_error hc] at h
      cases h
      exact hc

/-- The entries of a line that is within all limits, with the faults of the whole line. -/
structure Entries (used : Nat) (entries : List Command) (faults : Faults) : Prop where
  entry : ∀ entry ∈ entries, entry.Entry
  covers : ∀ entry ∈ entries, ∀ fault ∈ entry.faults, fault ∈ faults
  capacity : faults.overCapacity = false
  budget : used + (allCommands entries).length ≤ maxCommands

theorem ofParts_ok {used : Nat} (hu : used ≤ maxCommands) {parts : List (List Token)}
    {entries : List Command} {faults : Faults} (h : ofParts used parts = .ok (entries, faults)) :
    Entries used entries faults := by
  induction parts generalizing used entries faults with
  | nil =>
    cases h
    exact ⟨by simp, by simp, rfl, by simpa [allCommands] using hu⟩
  | cons part parts ih =>
    obtain ⟨hc, rest, others, hr, rfl, rfl⟩ := ofParts_cons_ok h
    obtain ⟨hused, hle, hpart⟩ := ofPart_part hu part hc
    have hrest := ih hle hr
    generalize (ofPart used part).1 = command at hc hpart ⊢
    have hcapacity : (command.faults ∪ others).overCapacity = false := by
      simp [hc, hrest.capacity]
    cases hpart with
    | empty _ =>
      refine ⟨hrest.entry, fun entry he fault hf => ?_, hcapacity, ?_⟩
      · exact Faults.mem_union.2 (.inr (hrest.covers entry he fault hf))
      · have := hrest.budget
        simp only [isEmpty, if_true]
        omega
    | invalid h => exact absurd h (by simpa [Command.faults] using hc)
    | entry he hlen =>
      rw [he.isEmpty]
      refine ⟨List.forall_mem_cons.2 ⟨he, hrest.entry⟩, List.forall_mem_cons.2 ⟨?_, ?_⟩,
        hcapacity, ?_⟩
      · exact fun fault hf => Faults.mem_union.2 (.inl hf)
      · exact fun entry hm fault hf => Faults.mem_union.2 (.inr (hrest.covers entry hm fault hf))
      · have := hrest.budget
        simp only [Bool.false_eq_true, if_false, allCommands, List.length_append]
        omega

/-- Entries make a well-formed command, and a single one with all the faults is the command. -/
theorem ofEntries_wellFormed {entries : List Command} {faults : Faults}
    (h : Entries 0 entries faults) : (ofEntries entries faults).WellFormed ∧
      (ofEntries entries faults).commands.length ≤ maxCommands := by
  have hbudget : (allCommands entries).length ≤ maxCommands := by simpa using h.budget
  match entries with
  | [] => exact ⟨.empty h.capacity, Nat.zero_le _⟩
  | [entry] =>
    rw [ofEntries]
    split
    · exact ⟨.entry (h.entry entry List.mem_cons_self), by simpa [allCommands] using hbudget⟩
    · rename_i hne
      refine ⟨.list (by simp) h.entry h.covers (fun other ho => ?_) h.capacity, hbudget⟩
      obtain rfl : entry = other := by simpa using ho
      exact fun he => hne he.symm
  | first :: second :: rest =>
    exact ⟨.list (by simp) h.entry h.covers (by simp) h.capacity, hbudget⟩

/-- The form of a parse, and its size. -/
theorem parse_fits (list : TokenList) :
    (parse list).WellFormed ∧ (parse list).commands.length ≤ maxCommands := by
  unfold parse
  split
  · exact ⟨.invalid (by simp [Fault.isCapacity]), Nat.zero_le _⟩
  · split
    · exact ⟨.invalid (ofParts_error ‹_›), Nat.zero_le _⟩
    · exact ofEntries_wellFormed (ofParts_ok (Nat.zero_le _) ‹_›)

/-- Every parse is well formed, and within the limit on the simple commands of a line. -/
theorem parse_wellFormed (list : TokenList) :
    (parse list).WellFormed ∧ (parse list).commands.length ≤ maxCommands ∧
      ∀ command ∈ (parse list).commands, command.Shaped := by
  obtain ⟨hwell, hlength⟩ := parse_fits list
  exact ⟨hwell, hlength, hwell.shaped⟩

end Command

end TinyShell
