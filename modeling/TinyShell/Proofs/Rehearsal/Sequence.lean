import TinyShell.Proofs.Command.Joining
import TinyShell.Proofs.Rehearsal.Tandem
import TinyShell.Proofs.Shell.Verdict

/-!
# Lines in a row

`Shell.runLine_sequence`: a line of two parts with `;` between them does what the two parts do as
lines of their own, one after the other.

The tokens of the line are those of its parts with one symbol between them (`lex_sequence`), so its
entries are theirs in a row (`ofLine_sequence`). A parsed line runs as its entries do, however many
there are (`run_ofEntries`), and entries in a row run one after the other (`runEntries_append`).
-/

namespace TinyShell

/-! ## The entries of a line -/

theorem Token.lex_sequence (first second : String) :
    lex (first ++ ";" ++ second).toList =
      lex first.toList ++ symbol .list :: lex second.toList := by
  have hchars : (first ++ ";" ++ second).toList = first.toList ++ ';' :: second.toList := by simp
  rw [hchars, lex_append _ rfl (by decide), lex_symbol rfl (by simp)]
  rfl

namespace Command

/-- The line is within all limits, and these are its entries. -/
structure HasEntries (line : String) (entries : List Command) : Prop where
  ofEntries : ∃ faults, ofLine line = ofEntries entries faults
  entry : ∀ entry ∈ entries, entry.Entry

theorem hasEntries {line : String} {entries : List Command} {faults : Faults}
    (ht : (Token.lex line.toList).length ≤ maxTokens)
    (h : ofParts 0 (Token.sections .list (Token.lex line.toList)) = .ok (entries, faults)) :
    HasEntries line entries := by
  refine ⟨⟨faults, ?_⟩, (ofParts_ok (Nat.zero_le _) h).entry⟩
  simp only [ofLine, parse, TokenList.ofLine, Nat.not_lt.2 ht, decide_false, Bool.false_eq_true,
    if_false, List.take_of_length_le ht, h]

theorem exists_entries {line : String} (h : (ofLine line).isInvalid = false) :
    (Token.lex line.toList).length ≤ maxTokens ∧ ∃ entries faults,
      ofParts 0 (Token.sections .list (Token.lex line.toList)) = .ok (entries, faults) := by
  have hvalid := mt (parse_isInvalid (.ofLine line)).2 (ne_true_of_eq_false h)
  simp only [TokenList.ofLine, decide_eq_true_eq, not_or, Nat.not_lt] at hvalid
  obtain ⟨ht, hp⟩ := hvalid
  rw [List.take_of_length_le ht] at hp
  refine ⟨ht, ?_⟩
  rcases hr : ofParts 0 (Token.sections .list (Token.lex line.toList)) with
    faults | ⟨entries, faults⟩
  · exact absurd ⟨faults, hr⟩ hp
  · exact ⟨entries, faults, rfl⟩

/-- The entries of a line in two parts are those of its parts. -/
theorem ofLine_sequence {first second : String}
    (h : (ofLine (first ++ ";" ++ second)).isInvalid = false) :
    ∃ left right, HasEntries first left ∧ HasEntries second right ∧
      HasEntries (first ++ ";" ++ second) (left ++ right) := by
  obtain ⟨ht, entries, faults, hp⟩ := exists_entries h
  have hall := hasEntries ht hp
  rw [Token.lex_sequence, Token.sections_append] at hp
  rw [Token.lex_sequence, List.length_append, List.length_cons] at ht
  obtain ⟨left, leftFaults, right, rightFaults, between, hle, hl, hr, rfl, -⟩ := ofParts_append hp
  exact ⟨left, right, hasEntries (by omega) hl, hasEntries (by omega) (ofParts_mono hle hr), hall⟩

theorem ofEntries_isEmpty {entries : List Command} (h : ∀ entry ∈ entries, entry.Entry)
    (faults : Faults) : (ofEntries entries faults).isEmpty = entries.isEmpty := by
  match entries with
  | [] => rfl
  | [entry] =>
    rw [ofEntries]
    split
    · exact (h entry List.mem_cons_self).isEmpty
    · rfl
  | _ :: _ :: _ => rfl

theorem HasEntries.isEmpty {line : String} {entries : List Command} (h : HasEntries line entries) :
    (ofLine line).isEmpty = entries.isEmpty := by
  obtain ⟨faults, hl⟩ := h.ofEntries
  rw [hl, ofEntries_isEmpty h.entry]

end Command

/-! ## Entries in a row -/

namespace Job

variable (shell : Shell)

/-- However many entries a line has, it runs as they do. -/
theorem run_ofEntries {entries : List Command} (hne : entries ≠ []) (faults : Faults) :
    run shell (.ofEntries entries faults) = runEntries shell 0 entries := by
  match entries, hne with
  | [entry], _ =>
    rw [runEntries_singleton, Command.ofEntries]
    split
    · rfl
    · rw [run, runEntries_singleton]
  | _ :: _ :: _, _ => rfl

variable {shell} in
/-- The second entries run where the first ones left the shell, unless that is to stop. -/
theorem runEntries_append (hr : shell.running) (last : Status) (first second : List Command) :
    runEntries shell last (first ++ second) = runEntries shell last first >>= fun result =>
      if result.2.running then runEntries result.2 result.1 second else pure result := by
  induction first generalizing shell last with
  | nil => exact (if_pos hr).symm
  | cons entry rest ih =>
    rw [List.cons_append, runEntries, runEntries, Behavior.bind_assoc]
    refine congrArg (run shell entry >>= ·) (funext fun result => ?_)
    obtain ⟨status, after⟩ := result
    by_cases ha : after.running
    · simp only [ha, if_true]
      exact ih ha status
    · simp only [ha, Bool.false_eq_true, if_false]
      exact (if_neg ha).symm

end Job

/-! ## Lines in a row -/

namespace Shell

open TinyShell.Action (Alike ComesTo Tandem)

variable {view : View} {known : Pid → Prop} {recorder recorder' : Recorder}
  {shell shell' : Shell} {line : String} {entries : List Command}

/-- A line ends as its entries do, with their status as that of a line. -/
theorem runLine_of_entries (shell : Shell) (recorder : Recorder)
    (hl : Command.HasEntries line entries) {ending : Ending (Status × Shell)} {after : Recorder}
    (h : ComesTo Recorder.host (Job.runEntries (shell.loaded line) 0 entries >>= fun result =>
      pure (lineStatus result.2 entries.isEmpty result.1, result.2))
      (recorder.tell (advice line)) ending after) :
    ComesTo Recorder.host (shell.runLine line) recorder ending after := by
  refine runLine_of_job shell line recorder ?_
  rw [hl.isEmpty]
  obtain ⟨faults, hc⟩ := hl.ofEntries
  rw [hc]
  by_cases hne : entries = []
  · -- nothing has run, and the status does not count
    subst hne
    exact h
  · rw [Job.run_ofEntries _ hne]
    exact h

theorem lineStatus_congr {background : Bool} (h : shell.Abreast background shell') (empty : Bool)
    (status : Status) : lineStatus shell empty status = lineStatus shell' empty status := by
  unfold lineStatus
  rw [h.running, h.lastStatus]

/-- Entries run as the line does that they are from, its messages apart. -/
theorem runEntries_tandem_runLine (hl : Command.HasEntries line entries)
    (hv : view.reports = false) (hs : shell.Abreast view.background shell')
    (h : recorder.Abreast view known recorder') :
    Tandem view known (fun result result' => result.2.Abreast view.background result'.2 ∧
        result'.1 = lineStatus result.2 entries.isEmpty result.1)
      (Job.runEntries shell 0 entries) recorder (shell'.runLine line) recorder' := by
  refine .from_right (fun _ _ => runLine_of_entries _ _ hl) ?_
  have hload := hs.trans (shell'.loaded_abreast line)
  have htold : recorder.Abreast view known (recorder'.tell (advice line)) := by
    simpa using h.tell_apart hv [] (advice line)
  refine (Job.runEntries_tandem hload htold 0 entries).bind_right ?_
  rintro ⟨status, after⟩ ⟨_, after'⟩ _ _ ⟨⟨rfl, hs⟩, h⟩
  exact ⟨_, _, .pure _ _, ⟨hs, (lineStatus_congr hs _ _).symm⟩, h⟩

/-- One line, and then another if the shell is to go on. An empty line has no status to add. -/
def runBoth (shell : Shell) (first second : String) : Action (Status × Shell) := do
  let (status, shell) ← shell.runLine first
  if shell.running then
    let (next, shell) ← shell.runLine second
    return (if (Command.ofLine second).isEmpty then status else next, shell)
  else
    return (status, shell)

theorem runLine_tandem_runBoth (hr : shell.running) {first second : String}
    (hv : (Command.ofLine (first ++ ";" ++ second)).isInvalid = false)
    (hreports : view.reports = false) (h : recorder.Abreast view known recorder) :
    Tandem view known (SameOutcome view) (shell.runLine (first ++ ";" ++ second)) recorder
      (shell.runBoth first second) recorder := by
  obtain ⟨left, right, hfirst, hsecond, hall⟩ := Command.ofLine_sequence hv
  refine .from_left (fun _ _ => runLine_of_entries _ _ hall) ?_
  have hload : (shell.loaded (first ++ ";" ++ second)).running := hr
  rw [Job.runEntries_append hload, Behavior.bind_assoc]
  refine (runEntries_tandem_runLine hfirst hreports (.refl ..)
    (by simpa using h.tell_apart hreports _ [])).bind ?_
  rintro ⟨status, after⟩ ⟨status', after'⟩ r r' ⟨⟨hs, rfl⟩, h⟩
  have hs : after.Abreast view.background after' := hs
  simp only [← hs.running]
  by_cases ha : after.running
  · simp only [ha, if_true]
    rcases right with _ | ⟨entry, rest⟩
    · -- the second line has nothing to run, so it takes its place in the shell and that is all
      have hempty := runLine_of_entries after' r' hsecond (.bind (.pure _ _) (.pure _ _))
      refine .after_right hempty (.pure ⟨⟨?_, hs.running, hs.lastStatus, hs.background⟩,
        by simpa using h.tell_apart hreports [] _⟩)
      simp [hsecond.isEmpty]
    · have hlast : Job.runEntries after status (entry :: rest) =
          Job.runEntries after 0 (entry :: rest) := rfl
      rw [hlast]
      refine (runEntries_tandem_runLine hsecond hreports hs h).bind ?_
      rintro ⟨next, last⟩ ⟨_, last'⟩ _ _ ⟨⟨hs, rfl⟩, h⟩
      have hne : (left ++ entry :: rest).isEmpty = false := by cases left <;> rfl
      refine .pure ⟨⟨?_, hs⟩, h⟩
      simp [hsecond.isEmpty, hne]
  · simp only [ha, Bool.false_eq_true, if_false]
    refine .pure ⟨⟨?_, hs⟩, h⟩
    simp [lineStatus, ha]

/-- The same calls and the same output. -/
structure SameOutput (after after' : Recorder) : Prop where
  events : after.record.events = after'.record.events
  output : after.record.output = after'.record.output

/-- The same record, and the same status and state of the shell. -/
structure SameEnd (result result' : Status × Shell) (after after' : Recorder) : Prop
    extends SameOutput after after' where
  status : result.1 = result'.1
  running : result.2.running = result'.2.running
  lastStatus : result.2.lastStatus = result'.2.lastStatus
  background : result.2.background = result'.2.background

/-- A line of two parts with `;` between them makes the calls and has the output of its parts, run
one after the other, and leaves the shell as they do; or it exits where one of them does. -/
theorem runLine_sequence {shell : Shell} (hr : shell.running = true) {first second : String}
    (hv : (Command.ofLine (first ++ ";" ++ second)).isInvalid = false) (recorder : Recorder) :
    Alike Recorder.host SameOutput SameEnd (shell.runLine (first ++ ";" ++ second)) recorder
      (shell.runBoth first second) recorder := by
  let view : View :=
    { input := fun _ _ => True, output := true, reports := false, background := true }
  have htandem : Tandem view (fun _ => False) (SameOutcome view)
      (shell.runLine (first ++ ";" ++ second)) recorder (shell.runBoth first second) recorder :=
    runLine_tandem_runBoth hr hv rfl (.refl _ _ recorder trivial)
  refine Alike.mono htandem (fun _ _ h => ⟨h.events, h.output rfl⟩) ?_
  rintro _ _ _ _ ⟨⟨hstatus, hs⟩, h⟩
  exact ⟨⟨h.events, h.output rfl⟩, hstatus, hs.running, hs.lastStatus, hs.background rfl⟩

/-- A pipeline in the background whose first program is missing, and a part that stops the shell
before its last entry. -/
theorem runLine_sequence_quit :
    let shell : Shell := { lastStatus := 4, background := [90] }
    let recorder : Recorder := { missing := ["cat"], ended := [(90, 2)], lastPid := 90 }
    let first := "cat < notes | wc &"
    let second := "ls; quit 3; < notes; rm notes"
    shell.running = true ∧ (Command.ofLine (first ++ ";" ++ second)).isInvalid = false ∧
      Alike Recorder.host SameOutput SameEnd (shell.runLine (first ++ ";" ++ second)) recorder
        (shell.runBoth first second) recorder := by
  intro shell recorder first second
  have hv : (Command.ofLine (first ++ ";" ++ second)).isInvalid = false := by decide +kernel
  exact ⟨rfl, hv, runLine_sequence rfl hv recorder⟩

end Shell

end TinyShell
