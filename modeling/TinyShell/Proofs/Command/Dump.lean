import Mathlib.Data.List.Basic
import Mathlib.Data.Set.List
import TinyShell.Command.Dump
import TinyShell.Proofs.Command.Nodes
import TinyShell.Proofs.Token.Dump

/-!
# Commands and their dump

`Command.dumps_unambiguous`: two lines with the same dump of their tokens have the same tokens, and
two lines with the same dump of their commands have the same commands, down to every fault.

The lines of a node say by their letters which block they belong to (`SimpleCommand.mark`), and the
lines of a node with others below it say how many there are. So the lines of each node tell where
they end, and which node they are of (`Text.SelfDelimiting`); this goes up from redirections and
faults to simple commands, pipelines and lists. Three things are not written: the descriptor that a
redirection copies, the redirections that are not set, and where a text ends. The parser never sets
the first, has only one form for the second (`Slots.Shaped`), and has no texts with newlines.
-/

namespace TinyShell

open Text (OneLine StartsWith SelfDelimiting append_inj_of_forall append_inj_of_not_mem)

/-! ## Faults -/

namespace Fault

theorem text_injective {fault other : Fault} (h : fault.text = other.text) : fault = other := by
  revert h
  cases fault <;> cases other <;> decide

theorem comma_not_mem_text (fault : Fault) : ',' ∉ fault.text.toList := by
  cases fault <;> decide

theorem oneLine_text (fault : Fault) : OneLine fault.text := by
  cases fault <;> decide

theorem text_ne_ok (fault : Fault) : fault.text ≠ "OK" := by
  cases fault <;> decide

end Fault

namespace Faults

/-- What is written of a set of faults, between commas. -/
def labels (faults : Faults) : List String :=
  if faults.isEmpty then ["OK"] else faults.toList.map Fault.text

theorem text_eq (faults : Faults) : faults.text = ", ".intercalate faults.labels := by
  unfold text labels
  split
  · exact String.intercalate_singleton.symm
  · rfl

theorem eq_empty_of_isEmpty {faults : Faults} (h : faults.isEmpty) : faults = ∅ := by
  obtain ⟨mask⟩ := faults
  obtain rfl : mask = 0 := by simpa [isEmpty] using h
  rfl

theorem forall_mem_labels {p : String → Prop} (hok : p "OK") (ht : ∀ fault : Fault, p fault.text)
    (faults : Faults) : ∀ label ∈ faults.labels, p label := by
  intro label hl
  unfold labels at hl
  split at hl
  · rwa [List.mem_singleton.1 hl]
  · obtain ⟨fault, -, rfl⟩ := List.mem_map.1 hl
    exact ht fault

theorem labels_ne_nil (faults : Faults) : faults.labels ≠ [] := by
  unfold labels
  split
  · simp
  · rename_i hne
    intro h
    have hnone : faults.toList = [] := List.map_eq_nil_iff.1 h
    have hempty : faults = ∅ := ext fun fault => by
      refine iff_of_false ?_ (not_mem_empty fault)
      rw [← mem_toList, hnone]
      exact List.not_mem_nil
    exact hne (hempty ▸ rfl)

theorem labels_inj {first second : Faults} (h : first.labels = second.labels) :
    first = second := by
  have hok (faults : Faults) : ["OK"] ≠ faults.toList.map Fault.text := by
    intro he
    have hmem : "OK" ∈ faults.toList.map Fault.text := he ▸ List.mem_singleton_self "OK"
    obtain ⟨fault, -, ht⟩ := List.mem_map.1 hmem
    exact fault.text_ne_ok ht
  unfold labels at h
  split at h <;> split at h
  · rename_i hf hs
    rw [eq_empty_of_isEmpty hf, eq_empty_of_isEmpty hs]
  · exact absurd h (hok second)
  · exact absurd h.symm (hok first)
  · have hlist := List.map_injective_iff.2 (fun _ _ => Fault.text_injective) h
    exact ext fun fault => by rw [← mem_toList, ← mem_toList, hlist]

theorem text_injective {first second : Faults} (h : first.text = second.text) :
    first = second := by
  have hcomma := forall_mem_labels (p := fun label => ',' ∉ label.toList) (by decide)
    Fault.comma_not_mem_text
  rw [text_eq, text_eq] at h
  exact labels_inj (Text.intercalate_inj rfl (hcomma first) (hcomma second) first.labels_ne_nil
    second.labels_ne_nil h)

@[simp]
theorem oneLine_text (faults : Faults) : OneLine faults.text := by
  rw [text_eq]
  exact Text.not_mem_intercalate (by decide)
    (forall_mem_labels (by decide) Fault.oneLine_text faults)

/-- A line that says what is wrong, and nothing else. -/
theorem line_inj {title : String} {faults faults' : Faults} {rest rest' : List String}
    (h : [title ++ faults.text] ++ rest = [title ++ faults'.text] ++ rest') :
    faults = faults' ∧ rest = rest' := by
  obtain ⟨hline, hrest⟩ := List.cons.inj h
  exact ⟨text_injective ((String.append_right_inj _).1 hline), hrest⟩

/-- A line that says how many nodes are below, and what is wrong with them. -/
theorem count_inj {title : String} {count count' : Nat} {faults faults' : Faults}
    (h : title ++ toString count ++ " flags=" ++ faults.text =
      title ++ toString count' ++ " flags=" ++ faults'.text) :
    count = count' ∧ faults = faults' := by
  have hspace (faults : Faults) : StartsWith ' ' (" flags=" ++ faults.text) :=
    Text.startsWith_append rfl _
  rw [String.append_assoc, String.append_assoc, String.append_assoc, String.append_assoc,
    String.append_right_inj] at h
  obtain ⟨hcount, hflags⟩ := append_inj_of_not_mem (Text.not_mem_repr rfl count)
    (Text.not_mem_repr rfl count') (hspace faults) (hspace faults') h
  exact ⟨Text.repr_inj hcount, text_injective ((String.append_right_inj _).1 hflags)⟩

end Faults

/-! ## Redirections -/

namespace RedirKind

theorem space_not_mem_name (kind : RedirKind) : ' ' ∉ kind.name.toList := by
  cases kind <;> decide

theorem oneLine_name (kind : RedirKind) : OneLine kind.name := by
  cases kind <;> decide

theorem name_injective {kind other : RedirKind} (h : kind.name = other.name) : kind = other := by
  revert h
  cases kind <;> cases other <;> decide

/-- The descriptor that redirections of this kind are for. -/
def source : RedirKind → Descriptor
  | input => 0
  | output | append | unset => 1

end RedirKind

namespace Redirection

/-- A redirection to a file, for the descriptor that suits it. -/
def ofFile (file : RedirKind × String) : Redirection := .toPath file.1.source file.1 file.2

theorem dumpLine_eq (redirection : Redirection) : redirection.dumpLine =
    "REDIRECT: kind=" ++ (redirection.kind.name ++ (" fd=" ++ Text.decimal redirection.source ++
      " path=" ++ redirection.path.getD "")) := by
  unfold dumpLine
  simp only [String.append_assoc]

theorem dumpLine_ofFile_inj {file other : RedirKind × String}
    (h : (ofFile file).dumpLine = (ofFile other).dumpLine) : file = other := by
  have hspace (fd path : String) : StartsWith ' ' (" fd=" ++ fd ++ " path=" ++ path) := by
    rw [String.append_assoc, String.append_assoc]
    exact Text.startsWith_append rfl _
  rw [dumpLine_eq, dumpLine_eq, String.append_right_inj] at h
  obtain ⟨hname, hpath⟩ := append_inj_of_not_mem file.1.space_not_mem_name
    other.1.space_not_mem_name (hspace _ _) (hspace _ _) h
  have hkind : file.1 = other.1 := RedirKind.name_injective hname
  simp only [ofFile, toPath, hkind, String.append_right_inj, Option.getD_some] at hpath
  exact Prod.ext hkind hpath

variable {redirection : Redirection} {fd : Descriptor} {kinds : List RedirKind}

theorem Shaped.eq_none (h : redirection.Shaped fd kinds) (hs : redirection.isSet = false) :
    redirection = .none fd := by
  obtain ⟨source, target, path, kind⟩ := redirection
  obtain rfl : source = fd := h.source
  obtain rfl : target = .none := h.target
  obtain rfl : kind = .unset := by simpa [isSet] using hs
  obtain rfl : path = .none := by simpa using h.path
  rfl

theorem Shaped.eq_ofFile (h : redirection.Shaped fd kinds) (hs : redirection.isSet)
    (hk : ∀ kind ∈ kinds, kind.source = fd) : ∃ file, ofFile file = redirection := by
  obtain ⟨source, target, path, kind⟩ := redirection
  obtain rfl : source = fd := h.source
  obtain rfl : target = .none := h.target
  have hne : kind ≠ .unset := by simpa [isSet] using hs
  obtain ⟨path, rfl⟩ := Option.isSome_iff_exists.1 (h.path.2 hne)
  refine ⟨(kind, path), ?_⟩
  rw [ofFile, hk kind (h.kind.resolve_left hne)]
  rfl

end Redirection

namespace Slots

/-- The slots of these redirections. -/
def ofSet (redirections : List Redirection) : Slots where
  input := (redirections.find? fun redirection => redirection.source = 0).getD (.none 0)
  output := (redirections.find? fun redirection => redirection.source = 1).getD (.none 1)

/-- The redirections that are set are all that matters of slots. -/
theorem Shaped.ofSet_filter {slots : Slots} (h : slots.Shaped) :
    ofSet (slots.toList.filter Redirection.isSet) = slots := by
  have herror : slots.error.isSet = false := by simpa [Redirection.isSet] using h.error.kind
  have hinput : slots.input.source = 0 := h.input.source
  have houtput : slots.output.source = 1 := h.output.source
  obtain ⟨input, output, error⟩ := slots
  obtain rfl : error = .none 2 := h.error.eq_none herror
  cases hi : input.isSet <;> cases ho : output.isSet
  · obtain rfl := h.input.eq_none hi
    obtain rfl := h.output.eq_none ho
    rfl
  · obtain rfl := h.input.eq_none hi
    simp_all [ofSet, toList]
  · obtain rfl := h.output.eq_none ho
    simp_all [ofSet, toList]
  · simp_all [ofSet, toList]

theorem Shaped.exists_files {slots : Slots} (h : slots.Shaped) :
    ∃ files : List (RedirKind × String),
      files.map Redirection.ofFile = slots.toList.filter Redirection.isSet := by
  have hrange : slots.toList.filter Redirection.isSet ∈
      Set.range (List.map Redirection.ofFile) := by
    rw [Set.range_list_map]
    intro redirection hm
    obtain ⟨hm, hset⟩ := List.mem_filter.1 hm
    simp only [toList, List.mem_cons, List.not_mem_nil, or_false] at hm
    rcases hm with rfl | rfl | rfl
    · exact h.input.eq_ofFile hset (by simp [RedirKind.source])
    · exact h.output.eq_ofFile hset (by simp [RedirKind.source])
    · exact h.error.eq_ofFile hset (by simp)
  exact hrange

end Slots

/-! ## Simple commands -/

namespace SimpleCommand

/-- A command as the parser makes them: slots that are set in one way only, and no text that goes on
over lines. -/
structure Plain (command : SimpleCommand) : Prop where
  slots : command.slots.Shaped
  words : ∀ word ∈ command.argv, OneLine word
  paths : ∀ redirection ∈ command.slots.toList, OneLine (redirection.path.getD "")

theorem plain_of_words {words : List String} (h : ∀ word ∈ words, OneLine word) :
    Plain { argv := words } :=
  ⟨slots_none_shaped, h, by simp [Slots.toList, Redirection.none]; decide⟩

theorem Plain.redirect {command : SimpleCommand} (h : command.Plain) (kind : RedirKind)
    {path : String} (hp : OneLine path) :
    Plain { command with slots := command.slots.redirect kind path } := by
  have hpaths := h.paths
  simp only [Slots.toList, List.forall_mem_cons] at hpaths
  refine ⟨redirect_shaped h.slots kind path, h.words, ?_⟩
  cases kind <;> simp only [Slots.redirect, Slots.toList, List.forall_mem_cons] <;>
    simp_all [Redirection.toPath]

theorem parseTail_plain {command : SimpleCommand} (h : command.Plain) {tokens : List Token}
    (ht : ∀ token ∈ tokens, OneLine token.value) : (parseTail command tokens).Plain := by
  fun_induction parseTail command tokens with
  | case1 => exact h
  | case2 command token rest _ ih =>
    exact ih ⟨h.slots, h.words, h.paths⟩ (List.forall_mem_cons.1 ht).2
  | case3 => exact ⟨h.slots, h.words, h.paths⟩
  | case4 command token rest _ _ _ ih =>
    exact ih ⟨h.slots, h.words, h.paths⟩ (List.forall_mem_cons.1 ht).2
  | case5 => exact ⟨h.slots, h.words, h.paths⟩
  | case6 command token kind destination rest _ _ _ _ ih =>
    obtain ⟨-, hothers⟩ := List.forall_mem_cons.1 ht
    obtain ⟨hpath, hrest⟩ := List.forall_mem_cons.1 hothers
    exact ih (h.redirect kind hpath) hrest
  | case7 => exact ⟨h.slots, h.words, h.paths⟩

theorem parse_plain {tokens : List Token} (h : ∀ token ∈ tokens, OneLine token.value) :
    (parse tokens).Plain := by
  have hwords : ∀ word ∈ (leadingWords tokens).map Token.value, OneLine word := by
    intro word hm
    obtain ⟨token, ht, rfl⟩ := List.mem_map.1 hm
    exact h token (List.takeWhile_subset _ ht)
  rcases Nat.lt_or_ge maxArgs (leadingWords tokens).length with hover | hle
  · rw [parse_beyond hover]
    have hplain : Plain { argv := ((leadingWords tokens).map Token.value).take maxArgs } :=
      plain_of_words fun word hm => hwords word (List.mem_of_mem_take hm)
    exact ⟨hplain.slots, hplain.words, hplain.paths⟩
  · rw [parse_within hle]
    exact parseTail_plain (plain_of_words hwords) fun token ht =>
      h token (List.dropWhile_subset _ ht)

/-! ### The lines of a simple command -/

section
variable (indent : String) (command : SimpleCommand)

def headLine : String := indent ++ "Simple: cmd=" ++ command.name?.getD "(none)"

def argLines : List String :=
  command.argv.mapIdx fun i arg => indent ++ "\targv[" ++ toString i ++ "]=" ++ arg

def redirectLines : List String :=
  (command.slots.toList.filter Redirection.isSet).map fun redirection =>
    indent ++ "\t" ++ redirection.dumpLine

def backgroundLines : List String :=
  if command.background then [indent ++ "\tBACKGROUND"] else []

def faultLine : String := indent ++ "\tFlags=" ++ command.faults.text

theorem dumpLines_append (rest : List String) : command.dumpLines indent ++ rest =
    command.headLine indent :: (command.argLines indent ++ (command.redirectLines indent ++
      (command.backgroundLines indent ++ command.faultLine indent :: rest))) := by
  simp [dumpLines, headLine, argLines, redirectLines, backgroundLines, faultLine]

/-- The letter that tells the block of a line below a simple command. -/
def mark (line : String) : Option Char := line.toList[indent.toList.length + 1]?

theorem mark_argLines : ∀ line ∈ command.argLines indent, mark indent line = some 'a' := by
  intro line hl
  obtain ⟨i, -, rfl⟩ := List.mem_mapIdx.1 hl
  simp [mark]

theorem mark_redirectLines : ∀ line ∈ command.redirectLines indent,
    mark indent line = some 'R' := by
  intro line hl
  obtain ⟨redirection, -, rfl⟩ := List.mem_map.1 hl
  simp [mark, Redirection.dumpLine_eq]

theorem mark_backgroundLines : ∀ line ∈ command.backgroundLines indent,
    mark indent line = some 'B' := by
  intro line hl
  unfold backgroundLines at hl
  split at hl
  · obtain rfl := List.mem_singleton.1 hl
    simp [mark]
  · cases hl

theorem mark_faultLine : mark indent (command.faultLine indent) = some 'F' := by
  simp [mark, faultLine]

/-! A block ends where a line with another letter follows. -/

theorem mark_head_faults (rest : List String) {c : Char} (hf : 'F' ≠ c) :
    ∀ line ∈ (command.faultLine indent :: rest).head?, mark indent line ≠ some c := by
  intro line hl
  obtain rfl : _ = line := by simpa using hl
  simpa [mark_faultLine] using hf

theorem mark_head_background (rest : List String) {c : Char} (hb : 'B' ≠ c) (hf : 'F' ≠ c) :
    ∀ line ∈ (command.backgroundLines indent ++ command.faultLine indent :: rest).head?,
      mark indent line ≠ some c := by
  refine Text.forall_mem_head?_append (fun line hl => ?_) (mark_head_faults indent command rest hf)
  simpa [mark_backgroundLines indent command line hl] using hb

theorem mark_head_redirects (rest : List String) {c : Char} (hr : 'R' ≠ c) (hb : 'B' ≠ c)
    (hf : 'F' ≠ c) : ∀ line ∈ (command.redirectLines indent ++ (command.backgroundLines indent ++
      command.faultLine indent :: rest)).head?, mark indent line ≠ some c := by
  refine Text.forall_mem_head?_append (fun line hl => ?_)
    (mark_head_background indent command rest hb hf)
  simpa [mark_redirectLines indent command line hl] using hr

end

variable {indent : String} {first second : SimpleCommand}

theorem argLines_inj (h : first.argLines indent = second.argLines indent) :
    first.argv = second.argv := by
  have hplace (i : Nat) : ∀ word ∈ first.argv, ∀ other ∈ second.argv,
      indent ++ "\targv[" ++ toString i ++ "]=" ++ word =
        indent ++ "\targv[" ++ toString i ++ "]=" ++ other → word = other :=
    fun _ _ _ _ => (String.append_right_inj _).1
  exact Text.mapIdx_inj hplace h

theorem redirectLines_inj (hf : first.slots.Shaped) (hs : second.slots.Shaped)
    (h : first.redirectLines indent = second.redirectLines indent) :
    first.slots = second.slots := by
  obtain ⟨files, hfiles⟩ := hf.exists_files
  obtain ⟨others, hothers⟩ := hs.exists_files
  rw [redirectLines, redirectLines, ← hfiles, ← hothers, List.map_map, List.map_map] at h
  have hsame : files = others := List.map_injective_iff.2 (fun _ _ he =>
    Redirection.dumpLine_ofFile_inj ((String.append_right_inj _).1 he)) h
  rw [← hf.ofSet_filter, ← hs.ofSet_filter, ← hfiles, ← hothers, hsame]

theorem backgroundLines_inj (h : first.backgroundLines indent = second.backgroundLines indent) :
    first.background = second.background := by
  unfold backgroundLines at h
  cases hf : first.background <;> cases hs : second.background <;> simp [hf, hs] at h ⊢

theorem Plain.selfDelimiting (hf : first.Plain) (indent : String) :
    SelfDelimiting (fun command : SimpleCommand => command.dumpLines indent) Plain first := by
  intro second rest rest' hs h
  simp only [dumpLines_append] at h
  obtain ⟨-, h⟩ := List.cons.inj h
  obtain ⟨hargs, h⟩ := append_inj_of_forall (first.mark_argLines indent)
    (second.mark_argLines indent)
    (first.mark_head_redirects indent rest (by decide) (by decide) (by decide))
    (second.mark_head_redirects indent rest' (by decide) (by decide) (by decide)) h
  obtain ⟨hredirects, h⟩ := append_inj_of_forall (first.mark_redirectLines indent)
    (second.mark_redirectLines indent)
    (first.mark_head_background indent rest (by decide) (by decide))
    (second.mark_head_background indent rest' (by decide) (by decide)) h
  obtain ⟨hback, h⟩ := append_inj_of_forall (first.mark_backgroundLines indent)
    (second.mark_backgroundLines indent) (first.mark_head_faults indent rest (by decide))
    (second.mark_head_faults indent rest' (by decide)) h
  obtain ⟨hfaults, hrest⟩ := List.cons.inj h
  have hargv := argLines_inj hargs
  have hslots := redirectLines_inj hf.slots hs.slots hredirects
  have hrun := backgroundLines_inj hback
  have hset := Faults.text_injective ((String.append_right_inj _).1 hfaults)
  cases first
  cases second
  cases hargv
  cases hslots
  cases hrun
  cases hset
  exact ⟨rfl, hrest⟩

theorem Plain.oneLine_dumpLines {command : SimpleCommand} (h : command.Plain) {indent : String}
    (hi : OneLine indent) : ∀ line ∈ command.dumpLines indent, OneLine line := by
  have hliteral : OneLine "Simple: cmd=" ∧ OneLine "(none)" ∧ OneLine "\targv[" ∧ OneLine "]=" ∧
      OneLine "\t" ∧ OneLine "REDIRECT: kind=" ∧ OneLine " fd=" ∧ OneLine " path=" ∧
      OneLine "\tBACKGROUND" ∧ OneLine "\tFlags=" := by decide
  rw [← List.append_nil (command.dumpLines indent), dumpLines_append]
  simp only [List.forall_mem_cons, List.forall_mem_append]
  refine ⟨?_, ?_, ?_, ?_, ?_, by simp⟩
  · have hname : OneLine (command.name?.getD "(none)") := by
      rw [name?, List.head?_eq_getElem?]
      cases hw : command.argv[0]? with
      | none => exact hliteral.2.1
      | some word => exact h.words word (List.mem_of_getElem? hw)
    simp [headLine, hi, hname, hliteral]
  · intro line hl
    obtain ⟨i, hlt, rfl⟩ := List.mem_mapIdx.1 hl
    simp [hi, hliteral, h.words _ (List.getElem_mem hlt)]
  · intro line hl
    obtain ⟨redirection, hm, rfl⟩ := List.mem_map.1 hl
    have hpath := h.paths redirection (List.mem_of_mem_filter hm)
    simp [Redirection.dumpLine_eq, hi, hliteral, hpath, redirection.kind.oneLine_name]
  · intro line hl
    unfold backgroundLines at hl
    split at hl
    · obtain rfl := List.mem_singleton.1 hl
      simp [hi, hliteral]
    · cases hl
  · simp [faultLine, hi, hliteral]

end SimpleCommand

/-! ## Pipelines -/

namespace Pipeline

variable {indent : String}

/-- A bar stands before each stage but the first. -/
theorem dumpStages_cons (stage : SimpleCommand) (rest : List SimpleCommand) :
    dumpStages indent (stage :: rest) = stage.dumpLines indent ++
      if rest = [] then [] else (indent ++ "|") :: dumpStages indent rest := by
  cases rest <;> simp [dumpStages]

theorem dumpStages_inj {first second : List SimpleCommand} (hf : ∀ stage ∈ first, stage.Plain)
    (hs : ∀ stage ∈ second, stage.Plain) (hl : first.length = second.length)
    {rest rest' : List String}
    (h : dumpStages indent first ++ rest = dumpStages indent second ++ rest') :
    first = second ∧ rest = rest' := by
  induction first generalizing second with
  | nil =>
    obtain rfl := List.length_eq_zero_iff.1 hl.symm
    exact ⟨rfl, h⟩
  | cons stage stages ih =>
    cases second with
    | nil => cases hl
    | cons other others =>
      obtain ⟨hstage, hstages⟩ := List.forall_mem_cons.1 hf
      obtain ⟨hother, hothers⟩ := List.forall_mem_cons.1 hs
      have hlength : stages.length = others.length := Nat.succ.inj hl
      have hnil : stages = [] ↔ others = [] := by
        rw [← List.length_eq_zero_iff, hlength, List.length_eq_zero_iff]
      rw [dumpStages_cons, dumpStages_cons, List.append_assoc, List.append_assoc] at h
      obtain ⟨rfl, hbelow⟩ := hstage.selfDelimiting indent hother h
      by_cases hempty : stages = []
      · rw [if_pos hempty, if_pos (hnil.1 hempty)] at hbelow
        rw [hempty, hnil.1 hempty]
        exact ⟨rfl, hbelow⟩
      · rw [if_neg hempty, if_neg (mt hnil.2 hempty)] at hbelow
        obtain ⟨rfl, hrest⟩ := ih hstages hothers hlength (List.cons.inj hbelow).2
        exact ⟨rfl, hrest⟩

theorem oneLine_dumpStages (hi : OneLine indent) {stages : List SimpleCommand}
    (h : ∀ stage ∈ stages, stage.Plain) : ∀ line ∈ dumpStages indent stages, OneLine line := by
  induction stages with
  | nil => simp [dumpStages]
  | cons stage rest ih =>
    obtain ⟨hstage, hrest⟩ := List.forall_mem_cons.1 h
    rw [dumpStages_cons, List.forall_mem_append]
    refine ⟨hstage.oneLine_dumpLines hi, ?_⟩
    split
    · simp
    · have hbar : OneLine (indent ++ "|") := Text.oneLine_append.2 ⟨hi, by decide⟩
      exact List.forall_mem_cons.2 ⟨hbar, ih hrest⟩

end Pipeline

/-! ## Trees -/

namespace Command

/-- A tree of simple commands as the parser makes them. -/
def Plain (command : Command) : Prop := command.AllNodes SimpleCommand.Plain fun _ => True

theorem plain_ofLine (line : String) : (ofLine line).Plain := by
  refine parse_allNodes ⟨fun _ _ => trivial, fun _ _ _ _ => trivial, fun _ _ => trivial⟩ ?_
  intro stage hs
  refine SimpleCommand.parse_plain fun token ht => ?_
  have hplain := Token.plain_of_mem (Token.mem_of_mem_parts hs ht).1
  exact hplain.not_mem rfl

theorem dumpEntries_eq (indent : String) (entries : List Command) :
    dumpEntries indent entries = entries.flatMap (dumpLines indent) := by
  induction entries with
  | nil => rw [dumpEntries, List.flatMap_nil]
  | cons entry rest ih => rw [dumpEntries, ih, List.flatMap_cons]

/-- The letter that the first line of a node starts with. -/
def initial : Command → Char
  | .empty _ => 'E'
  | .invalid _ => 'I'
  | .simple _ => 'S'
  | .pipeline _ => 'P'
  | .list .. => 'L'

theorem initial_of_dumpLines (indent : String) (command : Command) (rest : List String) :
    ∀ line ∈ (command.dumpLines indent ++ rest).head?,
      line.toList[indent.toList.length]? = some command.initial := by
  cases command <;>
    simp [dumpLines, SimpleCommand.dumpLines, Pipeline.dumpLines, initial]

/-- Nodes of different kinds start with different lines. -/
theorem initial_eq {indent : String} {command other : Command} {rest rest' : List String}
    (h : command.dumpLines indent ++ rest = other.dumpLines indent ++ rest') :
    command.initial = other.initial := by
  have hne : (command.dumpLines indent ++ rest).head? ≠ none := by
    cases command <;> simp [dumpLines, SimpleCommand.dumpLines, Pipeline.dumpLines]
  obtain ⟨line, hline⟩ := Option.ne_none_iff_exists'.1 hne
  have hfirst := command.initial_of_dumpLines indent rest line hline
  have hsecond := other.initial_of_dumpLines indent rest' line (h ▸ hline)
  exact Option.some.inj (hfirst.symm.trans hsecond)

/-- The lines of a tree tell the tree. -/
theorem Plain.selfDelimiting {command : Command} (h : command.Plain) (indent : String) :
    SelfDelimiting (dumpLines indent) Plain command := by
  induction h generalizing indent with
  | @empty faults _ =>
    intro other rest rest' ho he
    cases ho with
    | @empty others _ =>
      simp only [dumpLines] at he
      obtain ⟨rfl, hrest⟩ := Faults.line_inj he
      exact ⟨rfl, hrest⟩
    | _ => exact absurd (initial_eq he) (by simp [initial])
  | @invalid faults _ =>
    intro other rest rest' ho he
    cases ho with
    | @invalid others _ =>
      simp only [dumpLines] at he
      obtain ⟨rfl, hrest⟩ := Faults.line_inj he
      exact ⟨rfl, hrest⟩
    | _ => exact absurd (initial_eq he) (by simp [initial])
  | @simple command hc =>
    intro other rest rest' ho he
    cases ho with
    | @simple _ ho =>
      simp only [dumpLines] at he
      obtain ⟨rfl, hrest⟩ := hc.selfDelimiting indent ho he
      exact ⟨rfl, hrest⟩
    | _ => exact absurd (initial_eq he) (by simp [initial])
  | @pipeline stages hstages _ =>
    intro other rest rest' ho he
    cases ho with
    | @pipeline others hothers _ =>
      simp only [dumpLines, Pipeline.dumpLines, List.cons_append, List.append_assoc] at he
      obtain ⟨hline, hbelow⟩ := List.cons.inj he
      obtain ⟨hlength, hfaults⟩ := Faults.count_inj hline
      obtain ⟨hsame, hend⟩ := Pipeline.dumpStages_inj hstages hothers hlength hbelow
      cases stages
      cases others
      cases hsame
      cases hfaults
      exact ⟨rfl, (List.cons.inj hend).2⟩
    | _ => exact absurd (initial_eq he) (by simp [initial])
  | @list entries faults hentries _ ih =>
    intro other rest rest' ho he
    cases ho with
    | @list others faults' hothers _ =>
      simp only [dumpLines, dumpEntries_eq, List.cons_append] at he
      obtain ⟨hline, hbelow⟩ := List.cons.inj he
      obtain ⟨hlength, rfl⟩ := Faults.count_inj hline
      obtain ⟨rfl, hrest⟩ := Text.flatMap_append_inj (fun entry hm => ih entry hm _) hothers
        hlength hbelow
      exact ⟨rfl, hrest⟩
    | _ => exact absurd (initial_eq he) (by simp [initial])

theorem Plain.oneLine_dumpLines {command : Command} (h : command.Plain) {indent : String}
    (hi : OneLine indent) : ∀ line ∈ command.dumpLines indent, OneLine line := by
  have hliteral : OneLine "Empty: flags=" ∧ OneLine "Invalid: flags=" ∧
      OneLine "Pipeline: len=" ∧ OneLine " flags=" ∧ OneLine "\tEND;" ∧ OneLine "List: len=" := by
    decide
  have hdeeper {indent : String} (hi : OneLine indent) : OneLine (indent ++ "\t") :=
    Text.oneLine_append.2 ⟨hi, by decide⟩
  induction h generalizing indent with
  | empty | invalid => simp [dumpLines, hi, hliteral]
  | simple hc =>
    rw [dumpLines]
    exact hc.oneLine_dumpLines hi
  | @pipeline stages hstages _ =>
    rw [dumpLines, Pipeline.dumpLines, List.forall_mem_append, List.forall_mem_cons]
    refine ⟨⟨?_, Pipeline.oneLine_dumpStages (hdeeper hi) hstages⟩, ?_⟩
    · simp [hi, hliteral]
    · simp [hi, hliteral]
  | @list entries faults _ _ ih =>
    rw [dumpLines, dumpEntries_eq, List.forall_mem_cons]
    refine ⟨by simp [hi, hliteral], fun line hl => ?_⟩
    obtain ⟨entry, hm, hl⟩ := List.mem_flatMap.1 hl
    exact ih entry hm (hdeeper hi) line hl

/-- A dump of a plain tree is a dump of no other. -/
theorem dump_inj {first second : Command} (hf : first.Plain) (hs : second.Plain)
    (h : first.dump = second.dump) : first = second := by
  have hlines := Text.unlines_inj (hf.oneLine_dumpLines (by decide))
    (hs.oneLine_dumpLines (by decide)) h
  have hsame : first.dumpLines "" ++ [] = second.dumpLines "" ++ [] := by rw [hlines]
  exact (hf.selfDelimiting "" hs hsame).1

/-- No dump is of two things: lines whose tokens have the same dump have the same tokens, none more
and none less, and lines whose commands have the same dump have the same tree, with the same words,
slots and faults at every node. -/
theorem dumps_unambiguous (first second : String) :
    ((TokenList.ofLine first).dump = (TokenList.ofLine second).dump ↔
      TokenList.ofLine first = TokenList.ofLine second) ∧
    ((ofLine first).dump = (ofLine second).dump ↔ ofLine first = ofLine second) := by
  constructor
  · have hplain (line : String) : ∀ token ∈ (TokenList.ofLine line).tokens, token.Plain :=
      fun _ => Token.plain_of_mem
    exact ⟨TokenList.dump_inj (hplain first) (hplain second), congrArg TokenList.dump⟩
  · exact ⟨dump_inj (plain_ofLine first) (plain_ofLine second), congrArg dump⟩

end Command

end TinyShell
