import TinyShell.Proofs.Command.Limits
import TinyShell.Proofs.Token.Factoring

/-!
# Writing commands

A command as the line that it is read from: `Command.text`. `Command.ofLine_text`: reading undoes
writing, so a line can ask for every tree of words within the limits.

The tokens of a written command are known (`Command.lex_text`), and each level of the parser takes
them apart the way writing put them together: a stage (`SimpleCommand.parse_items`), an entry
(`Command.ofPart_entryItems`), and the entries of a line (`Command.ofParts_entries`).
-/

namespace TinyShell

/-- A text that is read as one word. -/
def Token.IsWord (text : String) : Prop := text ≠ "" ∧ ∀ c ∈ text.toList, Token.isWordChar c

instance (text : String) : Decidable (Token.IsWord text) :=
  decidable_of_iff (text ≠ "" ∧ text.toList.all Token.isWordChar) (by simp [Token.IsWord])

/-! ## Written forms -/

/-- The symbol that asks for a redirection of this kind. -/
def RedirKind.symbol? : RedirKind → Option TokenKind
  | input => some .redirIn
  | output => some .redirOut
  | append => some .redirAppend
  | unset => none

/-- A redirection to a file: its symbol and its path. -/
def Redirection.items (redirection : Redirection) : List Token :=
  match redirection.kind.symbol?, redirection.path with
  | some kind, some path => [.symbol kind, .word path]
  | _, _ => []

namespace SimpleCommand

/-- What follows the words: input, output, and `&` for the background. -/
def tailItems (command : SimpleCommand) : List Token :=
  command.slots.input.items ++ command.slots.output.items ++
    if command.background then [.symbol .background] else []

/-- The words and what follows them. -/
def items (command : SimpleCommand) : List Token :=
  command.argv.map Token.word ++ command.tailItems

/-- The items with a space between two of them. -/
def text (command : SimpleCommand) : String :=
  " ".intercalate (command.items.map Token.text)

end SimpleCommand

namespace Pipeline

def items (pipeline : Pipeline) : List Token :=
  [Token.symbol .pipe].intercalate (pipeline.stages.map SimpleCommand.items)

/-- The stages with a bar between two of them. -/
def text (pipeline : Pipeline) : String :=
  TokenKind.pipe.symbol.intercalate (pipeline.stages.map SimpleCommand.text)

end Pipeline

namespace Command

/-- What runs one after the other: the entries of a list, or the command alone. -/
def entries : Command → List Command
  | list entries _ => entries
  | command => [command]

def entryItems : Command → List Token
  | simple command => command.items
  | pipeline stages => stages.items
  | _ => []

/-- An entry of a list as text; lists do not hold lists. -/
def entryText : Command → String
  | simple command => command.text
  | pipeline stages => stages.text
  | _ => ""

def items (command : Command) : List Token :=
  [Token.symbol .list].intercalate (command.entries.map entryItems)

/-- The entries with a semicolon between two of them. -/
def text (command : Command) : String :=
  TokenKind.list.symbol.intercalate (command.entries.map entryText)

end Command

/-! ## What can be written -/

/-- A simple command of words: input from a file and output to one, or none. -/
structure SimpleCommand.Writable (command : SimpleCommand) : Prop where
  argc : command.argc ≤ maxArgs
  argv : ∀ arg ∈ command.argv, Token.IsWord arg
  input : command.slots.input = .none 0 ∨
    ∃ path, Token.IsWord path ∧ command.slots.input = .toPath 0 .input path
  output : command.slots.output = .none 1 ∨ ∃ kind path, (kind = .output ∨ kind = .append) ∧
    Token.IsWord path ∧ command.slots.output = .toPath 1 kind path
  error : command.slots.error = .none 2
  faults : command.faults = ∅

/-- A pipeline of such commands, also of some without words. -/
structure Pipeline.Writable (pipeline : Pipeline) : Prop where
  stages : ∀ stage ∈ pipeline.stages, stage.Writable
  two_le : 2 ≤ pipeline.length
  length_le : pipeline.length ≤ maxStages
  faults : pipeline.faults = ∅

namespace Command

/-- What a written list consists of. -/
inductive WritableEntry : Command → Prop
  | simple {command : SimpleCommand} : command.argv ≠ [] → command.Writable →
    WritableEntry (.simple command)
  | pipeline {pipeline : Pipeline} : pipeline.Writable → WritableEntry (.pipeline pipeline)

/-- A tree without faults, of words only. -/
inductive Writable : Command → Prop
  | entry {command : Command} : command.WritableEntry → Writable command
  | list {entries : List Command} : 2 ≤ entries.length →
    (∀ entry ∈ entries, entry.WritableEntry) → Writable (.list entries ∅)

end Command

/-! ## The tokens of a written command -/

namespace Token

/-- A separator that stands alone takes part in no other token. -/
theorem lex_cons {c : Char} (hw : isWordChar c = false) (hc : c ≠ '>') (rest : List Char) :
    lex (c :: rest) = lex [c] ++ lex rest := by
  rcases hgap : isGap c with _ | _
  · have hsymbol : isSymbol c := by simpa [isWordChar, hgap] using hw
    rw [lex_symbol hsymbol (absurd · hc), lex_symbol hsymbol (absurd · hc), lex]
    rfl
  · rw [lex_gap hgap, lex_gap hgap, lex]
    rfl

/-- Texts between separators are read apart. -/
theorem lex_intercalate {c : Char} (hw : isWordChar c = false) (hc : c ≠ '>')
    (texts : List (List Char)) :
    lex ([c].intercalate texts) = (lex [c]).intercalate (texts.map lex) := by
  induction texts with
  | nil => simp [lex]
  | cons text rest ih =>
    rcases rest with _ | ⟨next, rest⟩
    · simp
    · rw [List.intercalate_cons_cons, List.append_assoc, List.singleton_append,
        lex_append text hw hc, lex_cons hw hc, ih]
      simp only [List.map_cons, List.intercalate_cons_cons, List.append_assoc]

theorem lex_isWord {text : String} (h : IsWord text) : lex text.toList = [word text] := by
  obtain ⟨hne, hword⟩ := h
  have hlist : text.toList ≠ [] := by simpa using hne
  obtain ⟨c, cs, hc⟩ := List.exists_cons_of_ne_nil hlist
  rw [hc] at hword
  have hends : EndsWord [] := by simp [EndsWord]
  have hlex := lex_word hword hends
  rwa [List.append_nil, ← hc, String.ofList_toList, lex] at hlex

/-- A token whose text is read as this token. -/
def Legible (token : Token) : Prop := lex token.text.toList = [token]

theorem legible_word {text : String} (h : IsWord text) : (word text).Legible := lex_isWord h

theorem legible_symbol {kind : TokenKind} (h : kind ∈ [TokenKind.redirIn, .redirOut, .redirAppend,
    .background]) : (symbol kind).Legible := by
  simp only [List.mem_cons, List.not_mem_nil, or_false] at h
  rcases h with rfl | rfl | rfl | rfl <;>
    simp [Legible, text, isWord, symbol, TokenKind.symbol, lex, isGap, isSymbol,
      TokenKind.ofSymbol]

/-- Legible tokens with spaces between them are read as they are. -/
theorem lex_spaced {tokens : List Token} (h : ∀ token ∈ tokens, token.Legible) :
    lex (" ".intercalate (tokens.map text)).toList = tokens := by
  have hspace : lex [' '] = [] := by rw [lex_gap rfl, lex]
  have hjoin : " ".toList = [' '] := by simp
  rw [String.toList_intercalate, hjoin, lex_intercalate rfl (by decide), hspace]
  induction tokens with
  | nil => rfl
  | cons token rest ih =>
    obtain ⟨htoken, hrest⟩ := List.forall_mem_cons.1 h
    have htoken : lex token.text.toList = [token] := htoken
    rcases rest with _ | ⟨next, rest⟩
    · simpa using htoken
    · have htail := ih hrest
      simp only [List.map_cons, List.intercalate_cons_cons, List.append_nil] at htail ⊢
      rw [htail, htoken, List.singleton_append]

/-- Texts between bars or semicolons are read apart, and the separators as tokens. -/
theorem lex_joined {kind : TokenKind} (h : kind = .pipe ∨ kind = .list) (texts : List String) :
    lex (kind.symbol.intercalate texts).toList =
      [symbol kind].intercalate (texts.map fun text => lex text.toList) := by
  have hchar : ∃ c, kind.symbol.toList = [c] ∧ isSymbol c ∧ c ≠ '>' ∧
      TokenKind.ofSymbol c = kind := by
    rcases h with rfl | rfl
    · exact ⟨'|', by simp [TokenKind.symbol], rfl, by decide, rfl⟩
    · exact ⟨';', by simp [TokenKind.symbol], rfl, by decide, rfl⟩
  obtain ⟨c, hc, hsymbol, hne, hkind⟩ := hchar
  have hone : lex [c] = [symbol kind] := by rw [lex_symbol hsymbol (absurd · hne), hkind, lex]
  rw [String.toList_intercalate, hc, lex_intercalate (by simp [isWordChar, hsymbol]) hne, hone,
    List.map_map]
  rfl

end Token

namespace SimpleCommand.Writable

variable {command : SimpleCommand}

theorem legible_tailItems (h : command.Writable) :
    ∀ token ∈ command.tailItems, token.Legible := by
  have hin : ∀ token ∈ command.slots.input.items, token.Legible := by
    rcases h.input with hi | ⟨path, hp, hi⟩
    · simp [hi, Redirection.items, Redirection.none, RedirKind.symbol?]
    · simp [hi, Redirection.items, Redirection.toPath, RedirKind.symbol?, Token.legible_symbol,
        Token.legible_word hp]
  have hout : ∀ token ∈ command.slots.output.items, token.Legible := by
    rcases h.output with ho | ⟨kind, path, rfl | rfl, hp, ho⟩
    · simp [ho, Redirection.items, Redirection.none, RedirKind.symbol?]
    · simp [ho, Redirection.items, Redirection.toPath, RedirKind.symbol?, Token.legible_symbol,
        Token.legible_word hp]
    · simp [ho, Redirection.items, Redirection.toPath, RedirKind.symbol?, Token.legible_symbol,
        Token.legible_word hp]
  intro token ht
  rcases List.mem_append.1 ht with ht | ht
  · exact (List.mem_append.1 ht).elim (hin token) (hout token)
  · rcases hb : command.background with _ | _
    · simp [hb] at ht
    · obtain rfl : token = .symbol .background := by simpa [hb] using ht
      exact Token.legible_symbol (by simp)

theorem lex_text (h : command.Writable) : Token.lex command.text.toList = command.items := by
  refine Token.lex_spaced fun token ht => ?_
  rcases List.mem_append.1 ht with ht | ht
  · obtain ⟨arg, ha, rfl⟩ := List.mem_map.1 ht
    exact Token.legible_word (h.argv arg ha)
  · exact h.legible_tailItems token ht

end SimpleCommand.Writable

theorem Pipeline.Writable.lex_text {pipeline : Pipeline} (h : pipeline.Writable) :
    Token.lex pipeline.text.toList = pipeline.items := by
  rw [text, items, Token.lex_joined (.inl rfl), List.map_map]
  refine congrArg _ (List.map_congr_left fun stage hs => ?_)
  exact (h.stages stage hs).lex_text

namespace Command

theorem WritableEntry.lex_entryText {command : Command} (h : command.WritableEntry) :
    Token.lex command.entryText.toList = command.entryItems := by
  cases h with
  | simple _ h => exact h.lex_text
  | pipeline h => exact h.lex_text

theorem Writable.entry_of_mem {command : Command} (h : command.Writable) :
    ∀ entry ∈ command.entries, entry.WritableEntry := by
  cases h with
  | entry h =>
    have : command.entries = [command] := by cases h <;> rfl
    rw [this]
    exact List.forall_mem_singleton.2 h
  | list _ h => exact h

/-- A written command has the tokens that it was written from. -/
theorem Writable.lex_text {command : Command} (h : command.Writable) :
    Token.lex command.text.toList = command.items := by
  rw [text, items, Token.lex_joined (.inr rfl), List.map_map]
  refine congrArg _ (List.map_congr_left fun entry he => ?_)
  exact (h.entry_of_mem entry he).lex_entryText

end Command

/-! ## Taking them apart -/

namespace Token

theorem sections_append (separator : TokenKind) (before after : List Token) :
    sections separator (before ++ symbol separator :: after) =
      sections separator before ++ sections separator after := by
  simp only [sections_eq_splitOnP]
  exact List.splitOnP_append_cons before after (by simp [symbol])

theorem sections_of_forall_ne {separator : TokenKind} {tokens : List Token}
    (h : ∀ token ∈ tokens, token.kind ≠ separator) : sections separator tokens = [tokens] := by
  rw [sections_eq_splitOnP]
  exact List.splitOnP_eq_singleton fun token ht => by simpa using h token ht

theorem sections_intercalate {separator : TokenKind} {parts : List (List Token)}
    (hne : parts ≠ []) (h : ∀ part ∈ parts, ∀ token ∈ part, token.kind ≠ separator) :
    sections separator ([symbol separator].intercalate parts) = parts := by
  induction parts with
  | nil => exact absurd rfl hne
  | cons part rest ih =>
    obtain ⟨hpart, hrest⟩ := List.forall_mem_cons.1 h
    rcases rest with _ | ⟨next, rest⟩
    · rw [List.intercalate_singleton, sections_of_forall_ne hpart]
    · rw [List.intercalate_cons_cons, List.append_assoc, List.singleton_append,
        sections_append, sections_of_forall_ne hpart, ih (by simp) hrest,
        List.singleton_append]

end Token

theorem Redirection.kind_of_mem_items {redirection : Redirection} {token : Token}
    (h : token ∈ redirection.items) : token.kind ≠ .pipe ∧ token.kind ≠ .list := by
  rcases redirection with ⟨source, target, _ | path, kind⟩
  · cases kind <;> simp [items, RedirKind.symbol?] at h
  · cases kind <;> simp [items, RedirKind.symbol?] at h <;>
      rcases h with rfl | rfl <;> simp [Token.symbol, Token.word]

namespace SimpleCommand

/-- No item of a simple command separates commands. -/
theorem kind_of_mem_items {command : SimpleCommand} {token : Token} (h : token ∈ command.items) :
    token.kind ≠ .pipe ∧ token.kind ≠ .list := by
  rcases List.mem_append.1 h with h | h
  · obtain ⟨arg, -, rfl⟩ := List.mem_map.1 h
    simp [Token.word]
  · rcases List.mem_append.1 h with h | h
    · exact (List.mem_append.1 h).elim Redirection.kind_of_mem_items Redirection.kind_of_mem_items
    · rcases hb : command.background with _ | _
      · simp [hb] at h
      · obtain rfl : token = .symbol .background := by simpa [hb] using h
        simp [Token.symbol]

namespace Writable

variable {command : SimpleCommand}

/-- Behind the words stands no word. -/
theorem span_tailItems (h : command.Writable) :
    command.tailItems.takeWhile Token.isWord = [] ∧
      command.tailItems.dropWhile Token.isWord = command.tailItems := by
  obtain ⟨-, -, hin, hout, -, -⟩ := h
  obtain ⟨argv, ⟨input, output, error⟩, faults, background⟩ := command
  rcases hin with rfl | ⟨source, -, rfl⟩ <;>
    rcases hout with rfl | ⟨kind, path, rfl | rfl, -, rfl⟩ <;> cases background <;>
      exact ⟨rfl, rfl⟩

theorem parseTail_tailItems (h : command.Writable) :
    parseTail { argv := command.argv } command.tailItems = command := by
  obtain ⟨hargc, hargv, hin, hout, herror, hfaults⟩ := h
  obtain ⟨argv, ⟨input, output, error⟩, faults, background⟩ := command
  obtain rfl : error = .none 2 := herror
  obtain rfl : faults = ∅ := hfaults
  rcases hin with rfl | ⟨source, -, rfl⟩ <;>
    rcases hout with rfl | ⟨kind, path, rfl | rfl, -, rfl⟩ <;> cases background <;> rfl

theorem parse_items (h : command.Writable) : parse command.items = command := by
  have hwords : ∀ token ∈ command.argv.map Token.word, token.isWord := by
    intro token ht
    obtain ⟨arg, -, rfl⟩ := List.mem_map.1 ht
    rfl
  obtain ⟨htake, hdrop⟩ := h.span_tailItems
  have hvalues : (command.argv.map Token.word).map Token.value = command.argv := by
    simp [Token.word, Function.comp_def]
  have hle : command.argv.length ≤ maxArgs := h.argc
  simp only [parse, items, List.takeWhile_append_of_pos hwords,
    List.dropWhile_append_of_pos hwords, htake, hdrop, List.append_nil, hvalues, if_pos hle]
  exact h.parseTail_tailItems

end Writable

end SimpleCommand

namespace Pipeline

theorem kind_of_mem_items {pipeline : Pipeline} {token : Token} (h : token ∈ pipeline.items) :
    token.kind ≠ .list := by
  rw [items] at h
  generalize pipeline.stages = stages at h
  induction stages with
  | nil => simp at h
  | cons stage rest ih =>
    rcases rest with _ | ⟨next, rest⟩
    · rw [List.map_singleton, List.intercalate_singleton] at h
      exact (SimpleCommand.kind_of_mem_items h).2
    · simp only [List.map_cons, List.intercalate_cons_cons, List.mem_append,
        List.mem_singleton] at h ih
      rcases h with (h | rfl) | h
      · exact (SimpleCommand.kind_of_mem_items h).2
      · simp [Token.symbol]
      · exact ih h

/-- Stages without faults are a pipeline without faults. -/
theorem Writable.ofStages {pipeline : Pipeline} (h : pipeline.Writable) :
    Pipeline.ofStages pipeline.stages = pipeline := by
  obtain ⟨hstages, -, hle, hfaults⟩ := h
  have hnone : (Pipeline.ofStages pipeline.stages).faults = ∅ := by
    refine Faults.ext fun fault => iff_of_false (fun hf => ?_) (Faults.not_mem_empty fault)
    rcases mem_ofStages.1 hf with ⟨hlong, -⟩ | ⟨stage, hs, hf⟩
    · exact absurd hle (Nat.not_le.2 hlong)
    · rw [(hstages stage hs).faults] at hf
      exact Faults.not_mem_empty fault hf
  obtain ⟨stages, faults⟩ := pipeline
  obtain rfl : faults = ∅ := hfaults
  rw [← hnone]
  rfl

end Pipeline

namespace Command

theorem WritableEntry.faults {command : Command} (h : command.WritableEntry) :
    command.faults = ∅ := by
  cases h with
  | simple _ h => exact h.faults
  | pipeline h => exact h.faults

theorem WritableEntry.isEmpty {command : Command} (h : command.WritableEntry) :
    command.isEmpty = false := by
  cases h <;> rfl

theorem stagesOf_eq_sections {part : List Token} (h : part ≠ []) :
    stagesOf part = Token.sections .pipe part := by
  rw [stagesOf_ne_nil h, Token.sections_eq_splitOnP]

/-- The stages of a written entry are its simple commands, and they make up the entry. -/
theorem WritableEntry.entryItems_part {command : Command} (h : command.WritableEntry) :
    command.entryItems ≠ [] ∧
      stagesOf command.entryItems = command.commands.map SimpleCommand.items ∧
      ofStages (command.commands.map SimpleCommand.items) = command := by
  cases h with
  | @simple command hne h =>
    have hitems : command.items ≠ [] := by simp [SimpleCommand.items, hne]
    refine ⟨hitems, ?_, ?_⟩
    · rw [entryItems, stagesOf_eq_sections hitems, Token.sections_of_forall_ne fun token ht =>
        (SimpleCommand.kind_of_mem_items ht).1]
      rfl
    · rw [commands, List.map_singleton, ofStages, h.parse_items, ofStage, h.faults]
      simp [SimpleCommand.isEmpty, hne]
  | @pipeline pipeline h =>
    have hparse : (pipeline.stages.map SimpleCommand.items).map SimpleCommand.parse =
        pipeline.stages := by
      rw [List.map_map]
      exact (List.map_congr_left fun stage hs => (h.stages stage hs).parse_items).trans
        (List.map_id _)
    have hsections : Token.sections .pipe pipeline.items =
        pipeline.stages.map SimpleCommand.items := by
      have hne : pipeline.stages ≠ [] :=
        List.ne_nil_of_length_pos (Nat.lt_of_lt_of_le Nat.zero_lt_two h.two_le)
      refine Token.sections_intercalate (by simpa using hne) fun part hp token ht => ?_
      obtain ⟨stage, -, rfl⟩ := List.mem_map.1 hp
      exact (SimpleCommand.kind_of_mem_items ht).1
    obtain ⟨first, second, rest, hstages⟩ : ∃ first second rest,
        pipeline.stages = first :: second :: rest := by
      have := h.two_le
      rcases hstages : pipeline.stages with _ | ⟨first, _ | ⟨second, rest⟩⟩
      · simp [Pipeline.length, hstages] at this
      · simp [Pipeline.length, hstages] at this
      · exact ⟨first, second, rest, rfl⟩
    have hitems : pipeline.items ≠ [] := by
      simp [Pipeline.items, hstages, List.intercalate_cons_cons]
    refine ⟨hitems, ?_, ?_⟩
    · rw [entryItems, stagesOf_eq_sections hitems, hsections]
      rfl
    · have hmany : ofStages (pipeline.stages.map SimpleCommand.items) =
          ofPipeline (.ofStages ((pipeline.stages.map SimpleCommand.items).map .parse)) := by
        rw [hstages]
        rfl
      rw [commands, hmany, hparse, h.ofStages, ofPipeline, h.faults]
      rfl

/-- An entry takes one unit of the budget for each of its simple commands. -/
theorem WritableEntry.ofPart_entryItems {command : Command} (h : command.WritableEntry)
    {used : Nat} (hu : used + command.commands.length ≤ maxCommands) :
    ofPart used command.entryItems = (command, used + command.commands.length) := by
  obtain ⟨hne, hstages, hwhole⟩ := h.entryItems_part
  have hlength : (stagesOf command.entryItems).length = command.commands.length := by
    rw [hstages, List.length_map]
  rw [ofPart_within hne (by rwa [hlength]), hlength, hstages, hwhole]

/-- The entries of a line are its parts. -/
theorem ofParts_entries {entries : List Command} (h : ∀ entry ∈ entries, entry.WritableEntry)
    {used : Nat} (hu : used + (allCommands entries).length ≤ maxCommands) :
    ofParts used (entries.map entryItems) = .ok (entries, ∅) := by
  induction entries generalizing used with
  | nil => rfl
  | cons entry rest ih =>
    obtain ⟨hentry, hrest⟩ := List.forall_mem_cons.1 h
    rw [allCommands, List.length_append, ← Nat.add_assoc] at hu
    have hpart := hentry.ofPart_entryItems (Nat.le_trans (Nat.le_add_right _ _) hu)
    have hcapacity : (ofPart used entry.entryItems).1.faults.overCapacity = false := by
      rw [hpart, hentry.faults]
      rfl
    have hothers := ih hrest hu
    rw [List.map_cons, ofParts_cons hcapacity, hpart]
    simp only [hothers, Except.map, hentry.isEmpty, hentry.faults]
    rfl

theorem WritableEntry.kind_of_mem_entryItems {command : Command} (h : command.WritableEntry)
    {token : Token} (ht : token ∈ command.entryItems) : token.kind ≠ .list := by
  cases h with
  | simple => exact (SimpleCommand.kind_of_mem_items ht).2
  | pipeline => exact Pipeline.kind_of_mem_items ht

namespace Writable

variable {command : Command}

theorem entries_ne_nil (h : command.Writable) : command.entries ≠ [] := by
  cases h with
  | entry h => cases h <;> simp [entries]
  | list hl _ => exact List.ne_nil_of_length_pos (by rw [entries]; omega)

theorem ofEntries_entries (h : command.Writable) : ofEntries command.entries ∅ = command := by
  cases h with
  | entry h =>
    have hentries : command.entries = [command] := by cases h <;> rfl
    rw [hentries, ofEntries, if_pos h.faults.symm]
  | @list entries hl _ =>
    rcases entries with _ | ⟨first, _ | ⟨second, rest⟩⟩
    · simp at hl
    · simp at hl
    · rfl

theorem allCommands_entries (h : command.Writable) :
    allCommands command.entries = command.commands := by
  cases h with
  | entry h =>
    have hentries : command.entries = [command] := by cases h <;> rfl
    rw [hentries, allCommands, allCommands, List.append_nil]
  | list => rfl

theorem parse_items (h : command.Writable) (hc : command.commands.length ≤ maxCommands) :
    parse ⟨command.items, false⟩ = command := by
  have hsections : Token.sections .list command.items = command.entries.map entryItems := by
    refine Token.sections_intercalate (by simpa using h.entries_ne_nil) fun part hp token ht => ?_
    obtain ⟨entry, he, rfl⟩ := List.mem_map.1 hp
    exact (h.entry_of_mem entry he).kind_of_mem_entryItems ht
  have hparts : ofParts 0 (command.entries.map entryItems) = .ok (command.entries, ∅) :=
    ofParts_entries h.entry_of_mem (by rwa [h.allCommands_entries, Nat.zero_add])
  simp only [parse, Bool.false_eq_true, if_false, hsections, hparts]
  exact h.ofEntries_entries

end Writable

/-- Reading undoes writing: the line of a tree of words that is within the limits asks for that
tree. -/
theorem ofLine_text {command : Command} (h : command.Writable)
    (hc : command.commands.length ≤ maxCommands)
    (ht : (Token.lex command.text.toList).length ≤ maxTokens) : ofLine command.text = command := by
  rw [h.lex_text] at ht
  have htokens : TokenList.ofLine command.text = ⟨command.items, false⟩ := by
    rw [TokenList.ofLine, h.lex_text]
    simp only [List.take_of_length_le ht, Nat.not_lt.2 ht, decide_false]
  rw [ofLine, htokens, h.parse_items hc]

/-- A builtin, and a pipeline in the background with a stage that has no words. -/
theorem ofLine_text_backup :
    let copy : SimpleCommand :=
      { argv := ["sort", "-u"], slots := { input := .toPath 0 .input "(in)" } }
    let store : SimpleCommand :=
      { slots := { output := .toPath 1 .append "a=b" }, background := true }
    let command : Command :=
      .list [.simple { argv := ["cd", "/tmp"] }, .pipeline { stages := [copy, {}, store] }] ∅
    command.Writable ∧ command.commands.length ≤ maxCommands ∧
      (Token.lex command.text.toList).length ≤ maxTokens ∧ ofLine command.text = command := by
  intro copy store command
  have hcopy : copy.Writable := ⟨by decide, by decide +kernel, .inr ⟨_, by decide +kernel, rfl⟩,
    .inl rfl, rfl, rfl⟩
  have hnothing : ({} : SimpleCommand).Writable := ⟨by decide, by decide, .inl rfl, .inl rfl, rfl,
    rfl⟩
  have hstore : store.Writable := ⟨by decide, by decide, .inl rfl,
    .inr ⟨.append, _, .inr rfl, by decide +kernel, rfl⟩, rfl, rfl⟩
  have hcd : ({ argv := ["cd", "/tmp"] } : SimpleCommand).Writable := ⟨by decide,
    by decide +kernel, .inl rfl, .inl rfl, rfl, rfl⟩
  have hstages : ∀ stage ∈ [copy, {}, store], stage.Writable := by
    simp only [List.forall_mem_cons]
    exact ⟨hcopy, hnothing, hstore, by simp⟩
  have h : command.Writable := by
    refine .list (by decide) ?_
    simp only [List.forall_mem_cons]
    exact ⟨.simple (by simp) hcd, .pipeline ⟨hstages, by decide, by decide, rfl⟩, by simp⟩
  have hc : command.commands.length ≤ maxCommands := by decide
  have ht : (Token.lex command.text.toList).length ≤ maxTokens := by decide +kernel
  exact ⟨h, hc, ht, ofLine_text h hc ht⟩

end Command

end TinyShell
