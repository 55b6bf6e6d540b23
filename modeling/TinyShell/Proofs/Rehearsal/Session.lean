import TinyShell.Proofs.Rehearsal.Tandem
import TinyShell.Proofs.Text.Utf8

/-!
# Lines from the input and lines by themselves

`Shell.runLoop_runLines`: a shell that reads its lines from the input makes the calls and reports of
one that is given them one after the other.

The first one has more to do between two lines, and none of it shows: it collects the children in
the background (`reap_apart`), prompts, and reads (`read_line`). A line that fills the whole buffer
leaves its newline to be read as a line of its own, in a turn that does nothing (`blank_turn`).
What is collected are never children that a later line waits for, since a line only waits for those
that it has started.
-/

namespace TinyShell

open TinyShell.Action (Alike ComesTo)
open Text (Bytes)

/-! ## The line buffer -/

namespace LineBuffer

variable {buffer : LineBuffer}

@[simp]
theorem stored_empty : empty.stored = [] := List.take_zero

theorem push_length (h : buffer.length < maxLineLength) (byte : UInt8) :
    (buffer.push byte).length = buffer.length + 1 := by
  rw [push, dif_pos h]

theorem push_stored (h : buffer.length < maxLineLength) (byte : UInt8) :
    (buffer.push byte).stored = buffer.stored ++ [byte] := by
  rw [push, dif_pos h]
  simp only [stored, Vector.toList_set]
  rw [List.take_add_one, List.getElem?_set_self (by simp; omega),
    List.take_set_of_le (Nat.le_refl _)]
  rfl

end LineBuffer

/-! ## Reading -/

variable {recorder recorder' : Recorder} {buffer : LineBuffer}

/-- The recorder with this much of its input left. -/
def Recorder.left (recorder : Recorder) (input : Bytes) : Recorder := { recorder with input }

theorem Recorder.left_of_input {input : Bytes} (h : recorder.input = input) :
    recorder.left input = recorder := by
  subst h
  rfl

namespace LineBuffer

theorem readByte_full (fd : Descriptor) (h : maxLineLength ≤ buffer.length) (recorder : Recorder) :
    ComesTo Recorder.host (readByte fd buffer) recorder (.returned (.inr (buffer.ended, buffer)))
      recorder := by
  rw [readByte, if_pos h]
  exact .pure _ _

/-- What a byte of the input comes to, or the end of it. -/
def afterByte (buffer : LineBuffer) : Bytes → LineBuffer ⊕ (LineStatus × LineBuffer)
  | [] => .inr (buffer.ended, buffer)
  | byte :: _ => if byte = 10 then .inr (.line buffer.length, buffer) else .inl (buffer.push byte)

theorem readByte_room (fd : Descriptor) (h : buffer.length < maxLineLength) (recorder : Recorder) :
    ComesTo Recorder.host (readByte fd buffer) recorder
      (.returned (buffer.afterByte recorder.input)) (recorder.left recorder.input.tail) := by
  have hread : Recorder.host.answer (.read fd 1) recorder =
      (.ok (recorder.input.take 1), recorder.left (recorder.input.drop 1)) := rfl
  rw [readByte, if_neg (Nat.not_le.2 h)]
  refine .bind (.call hread) ?_
  rw [List.drop_one]
  rcases recorder.input with _ | ⟨byte, rest⟩
  · exact .pure _ _
  · simp only [List.take_succ_cons, afterByte]
    split <;> exact .pure _ _

/-- Bytes up to a newline go into the buffer. The newline goes too, unless there is no room left to
look for it. -/
theorem readBytes_comesTo (buffer : LineBuffer) (fd : Descriptor) {bytes rest : Bytes}
    (hnew : 10 ∉ bytes) (hroom : buffer.length + bytes.length ≤ maxLineLength)
    (hi : recorder.input = bytes ++ 10 :: rest) : ∃ filled unread,
      ComesTo Recorder.host (Action.iterate (readByte fd) buffer) recorder
        (.returned (.line filled.length, filled)) (recorder.left unread) ∧
      filled.stored = buffer.stored ++ bytes ∧
      (unread = rest ∨ unread = 10 :: rest ∧ buffer.length + bytes.length = maxLineLength) := by
  induction bytes generalizing buffer recorder with
  | nil =>
    rw [List.nil_append] at hi
    rcases Nat.lt_or_ge buffer.length maxLineLength with hlt | hge
    · have hlast := readByte_room fd hlt recorder
      rw [hi] at hlast
      exact ⟨buffer, rest, .iterate_last hlast, by simp, .inl rfl⟩
    · have hne : buffer.length ≠ 0 := by
        have hpos : 0 < maxLineLength := by decide
        omega
      have hended : buffer.ended = .line buffer.length := by simp [ended, isEmpty, hne]
      have hlast := readByte_full fd hge recorder
      rw [hended] at hlast
      refine ⟨buffer, 10 :: rest, ?_, by simp, .inr ⟨rfl, by simpa using Nat.le_antisymm hroom hge⟩⟩
      rw [Recorder.left_of_input hi]
      exact .iterate_last hlast
  | cons byte bytes ih =>
    obtain ⟨hb, hnew⟩ := not_or.1 (mt List.mem_cons.2 hnew)
    rw [List.length_cons] at hroom
    have hlt : buffer.length < maxLineLength := by omega
    have hlen := push_length hlt byte
    have hfirst := readByte_room fd hlt recorder
    rw [hi, List.cons_append, List.tail_cons, afterByte, if_neg (Ne.symm hb)] at hfirst
    obtain ⟨filled, unread, hrun, hstored, hunread⟩ :=
      @ih (recorder.left (bytes ++ 10 :: rest)) (buffer.push byte) hnew (by omega) rfl
    refine ⟨filled, unread, .iterate_next hfirst hrun, ?_, ?_⟩
    · rw [hstored, push_stored hlt, List.append_assoc, List.singleton_append]
    · rw [List.length_cons]
      exact hunread.imp_right fun h => ⟨h.1, by omega⟩

/-- A line comes back as it was typed. -/
theorem read_line (buffer : LineBuffer) (fd : Descriptor) {line : String} {rest : Bytes}
    (hnew : '\n' ∉ line.toList) (hlen : (Text.encode line).length ≤ maxLineLength)
    (hi : recorder.input = Text.encode line ++ 10 :: rest) : ∃ filled unread,
      ComesTo Recorder.host (buffer.read fd) recorder (.returned (.line filled.length, filled))
        (recorder.left unread) ∧
      filled.text = line ∧
      (unread = rest ∨ unread = 10 :: rest ∧ (Text.encode line).length = maxLineLength) := by
  obtain ⟨filled, unread, hrun, hstored, hunread⟩ := readBytes_comesTo empty fd
    (mt Text.newline_mem_encode hnew) (by simpa [empty] using hlen) hi
  refine ⟨filled, unread, hrun, ?_, by simpa [empty] using hunread⟩
  rw [text, hstored, stored_empty, List.nil_append, Text.decode_encode]

theorem read_end (buffer : LineBuffer) (fd : Descriptor) (hi : recorder.input = []) :
    ComesTo Recorder.host (buffer.read fd) recorder (.returned (.endOfInput, empty)) recorder := by
  have hlast := readByte_room fd (show empty.length < maxLineLength by decide) recorder
  rw [hi, List.tail_nil, Recorder.left_of_input hi] at hlast
  exact .iterate_last hlast

end LineBuffer

/-! ## Between two lines -/

/-- What a shell that has this much input left is compared in with one that is given its lines. -/
def View.session (unread : Bytes) : View where
  input input _ := input = unread
  output := false
  reports := true
  background := false

variable {unread : Bytes} {known : Pid → Prop}

namespace Recorder.Abreast

theorem left (h : recorder.Abreast (.session unread) known recorder') (input : Bytes) :
    (recorder.left input).Abreast (.session input) known recorder' :=
  ⟨h.core, rfl, h.output, h.reports, h.ended⟩

/-- A child that only the first one collects is no longer known. -/
theorem collect_left (h : recorder.Abreast (.session unread) known recorder') (pid : Pid) :
    (recorder.collect pid).2.Abreast (.session unread) (fun _ => False) recorder' := by
  unfold Recorder.collect
  split
  · exact ⟨h.core, h.input, h.output, h.reports, fun _ hp => hp.elim⟩
  · exact h.mono fun _ hp => hp.elim

end Recorder.Abreast

namespace Shell

theorem poll_apart (h : recorder.Abreast (.session unread) known recorder') (pid : Pid) :
    ∃ after, ComesTo Recorder.host (poll pid) recorder (.returned false) after ∧
      after.Abreast (.session unread) (fun _ => False) recorder' := by
  have hcollect := h.collect_left pid
  have hask : Recorder.host.answer (.tryWait pid) recorder =
      ((recorder.collect pid).1.map some, (recorder.collect pid).2) := rfl
  rcases hc : recorder.collect pid with ⟨errno | status, after⟩ <;> rw [hc] at hcollect hask
  · obtain rfl : errno = .echild := by
      unfold Recorder.collect at hc
      split at hc <;> cases hc
      rfl
    exact ⟨after, .bind (.call hask) (.pure _ _), hcollect⟩
  · exact ⟨_, .bind (.call hask) (.bind (display_comesTo ..) (.pure _ _)), hcollect.put_left rfl _⟩

/-- Whatever is collected, nothing is left to be tracked. -/
theorem pollAll_apart (h : recorder.Abreast (.session unread) known recorder') (pids : List Pid) :
    ∃ after, ComesTo Recorder.host (pollAll pids) recorder (.returned []) after ∧
      after.Abreast (.session unread) (fun _ => False) recorder' := by
  induction pids generalizing known recorder with
  | nil => exact ⟨recorder, .pure _ _, h.mono fun _ hp => hp.elim⟩
  | cons pid rest ih =>
    obtain ⟨between, hpoll, h⟩ := poll_apart h pid
    obtain ⟨after, hrest, h⟩ := ih h
    exact ⟨after, hpoll.bind (hrest.bind (.pure _ _)), h⟩

theorem reap_apart (shell : Shell) (h : recorder.Abreast (.session unread) known recorder') :
    ∃ after, ComesTo Recorder.host shell.reap recorder (.returned { shell with background := [] })
      after ∧ after.Abreast (.session unread) (fun _ => False) recorder' := by
  obtain ⟨after, hpoll, h⟩ := pollAll_apart h shell.background
  exact ⟨after, hpoll.bind (.pure _ _), h⟩

/-! ## Rounds -/

/-- A round whose line comes from the input runs the command of that line. What it tells the user
before that is what it would tell of the line alone. -/
theorem round_line (shell : Shell) {line : String} {rest : Bytes} (hnew : '\n' ∉ line.toList)
    (hlen : (Text.encode line).length ≤ maxLineLength)
    (h : recorder.Abreast (.session (Text.encode line ++ 10 :: rest)) known recorder') :
    ∃ ready between unread, ready.Abreast false shell ∧
      between.Abreast (.session unread) (fun _ => False) (recorder'.tell (advice line)) ∧
      (unread = rest ∨ unread = 10 :: rest ∧ (Text.encode line).length = maxLineLength) ∧
      ∀ ending after, ComesTo Recorder.host
        (Job.run ready (.ofLine line) >>= fun result => pure result.2) between ending after →
          ComesTo Recorder.host shell.round recorder ending after := by
  obtain ⟨reaped, hreap, h⟩ := shell.reap_apart h
  have h := h.put_left rfl (Text.encode shell.prompt)
  obtain ⟨filled, unread, hread, htext, hunread⟩ := shell.line.read_line .input hnew hlen h.input
  let taken : Shell := { shell with background := [], line := filled }
  have hget : ComesTo Recorder.host (getCommand { shell with background := [] }) reaped
      (.returned (true, taken.loaded filled.text))
      (((reaped.put (Text.encode shell.prompt)).left unread).tell (advice filled.text)) :=
    .bind (display_comesTo ..) (hread.bind ((parseLine_comesTo taken ..).bind (.pure _ _)))
  rw [htext] at hget
  exact ⟨taken.loaded line, _, unread, ⟨rfl, rfl, fun hv => nomatch hv⟩, (h.left unread).tell _,
    hunread, fun _ _ hrun => hreap.bind (hget.bind hrun)⟩

/-- At the end of the input the shell stops. -/
theorem round_end (shell : Shell) (h : recorder.Abreast (.session []) known recorder') :
    ∃ last after, ComesTo Recorder.host shell.round recorder (.returned last) after ∧
      after.Abreast (.session []) (fun _ => False) recorder' ∧ last.running = false ∧
      last.lastStatus = shell.lastStatus := by
  obtain ⟨reaped, hreap, h⟩ := shell.reap_apart h
  have h := h.put_left rfl (Text.encode shell.prompt)
  have hread := shell.line.read_end .input h.input
  have hget : ComesTo Recorder.host (getCommand { shell with background := [] }) reaped
      (.returned (false, { shell with background := [], line := .empty, running := false }))
      (reaped.put (Text.encode shell.prompt)) :=
    .bind (display_comesTo ..) (hread.bind (.pure _ _))
  exact ⟨_, _, hreap.bind (hget.bind (.pure _ _)), h, rfl, rfl⟩

/-- One turn of the loop. -/
def turn (shell : Shell) : Action (Shell ⊕ Shell) := do
  if shell.running then return .inl (← shell.round) else return .inr shell

theorem runLoop_eq (shell : Shell) : shell.runLoop = do
    let shell ← Action.iterate turn shell
    let pid ← Action.call .processId
    display "farewell" (shell.name ++ " (" ++ Text.decimal pid ++ ") was terminated\n")
    return (shell.lastStatus, shell) := rfl

theorem turn_running {shell : Shell} (hr : shell.running) :
    turn shell = shell.round >>= fun next => pure (.inl next) := if_pos hr

theorem turn_stopped {shell : Shell} (hr : shell.running = false) :
    turn shell = pure (.inr shell) := if_neg (ne_true_of_eq_false hr)

/-! ## Whole sessions -/

/-- Lines one after the other, up to the first that stops the shell. -/
def runLines (shell : Shell) : List String → Action Shell
  | [] => return shell
  | line :: rest => do
    let (_, shell) ← shell.runLine line
    if shell.running then runLines shell rest else return shell

/-- Lines as they are typed. -/
def typed (lines : List String) : Bytes := lines.flatMap fun line => Text.encode (line ++ "\n")

theorem typed_cons (line : String) (rest : List String) :
    typed (line :: rest) = Text.encode line ++ 10 :: typed rest := by
  rw [typed, List.flatMap_cons, Text.encode_append, List.append_assoc]
  rfl

/-- The same calls and the same reports. -/
structure SameReports (after after' : Recorder) : Prop where
  events : after.record.events = after'.record.events
  reports : after.record.reports = after'.record.reports

theorem sameReports (h : recorder.Abreast (.session unread) known recorder') :
    SameReports recorder recorder' := ⟨h.events, h.reports rfl⟩

theorem SameReports.put_left {after after' : Recorder} (h : SameReports after after')
    (bytes : Bytes) : SameReports (after.put bytes) after' := by
  unfold Recorder.put
  split
  · exact h
  · exact ⟨h.events, h.reports⟩

/-- The newline of a line that filled the buffer makes a round of its own, which does nothing. -/
theorem blank_turn {shell : Shell} (hr : shell.running) {rest : Bytes}
    (h : recorder.Abreast (.session (10 :: rest)) known recorder') :
    ∃ next between, next.Abreast false shell ∧
      between.Abreast (.session rest) (fun _ => False) recorder' ∧
      ComesTo Recorder.host (turn shell) recorder (.returned (.inl next)) between := by
  have htokens : TokenList.ofLine "" = .empty := by
    simp [TokenList.ofLine, Token.lex, TokenList.empty]
  have hempty : Command.ofLine "" = .empty ∅ := by
    rw [Command.ofLine, htokens]
    rfl
  have hadvice : advice "" = [] := by
    rw [advice, hempty]
    rfl
  have hencode : Text.encode "" = [] := rfl
  obtain ⟨ready, between, unread, hs, hb, hunread, hround⟩ :=
    shell.round_line (show '\n' ∉ "".toList by simp) (by simp [hencode]) h
  have hshort : (Text.encode "").length ≠ maxLineLength := by decide
  obtain rfl : unread = rest := hunread.resolve_right fun hfull => hshort hfull.2
  rw [hadvice, Recorder.tell_nil] at hb
  rw [hempty] at hround
  refine ⟨ready, between, hs, hb, ?_⟩
  rw [turn_running hr]
  exact (hround _ _ (.bind (.pure _ _) (.pure _ _))).bind (.pure _ _)

/-- A round with a line from the input, and the line alone. -/
theorem turn_tandem_runLine {shell shell' : Shell} (hr : shell.running) {line : String}
    {rest : Bytes} (hnew : '\n' ∉ line.toList)
    (hlen : (Text.encode line).length ≤ maxLineLength)
    (hs : shell.Abreast false shell')
    (h : recorder.Abreast (.session (Text.encode line ++ 10 :: rest)) known recorder') :
    Alike Recorder.host SameReports
      (fun next result after after' => ∃ ended unread, next = .inl ended ∧
        ended.Abreast false result.2 ∧
        after.Abreast (.session unread) (fun _ => False) after' ∧
        (unread = rest ∨ unread = 10 :: rest))
      (turn shell) recorder (shell'.runLine line) recorder' := by
  obtain ⟨ready, between, unread, hready, hb, hunread, hround⟩ := shell.round_line hnew hlen h
  have hload : ready.Abreast false (shell'.loaded line) :=
    (hready.trans hs).trans (shell'.loaded_abreast line)
  have hjob : Alike Recorder.host SameReports
      (fun ended result after after' => ended.Abreast false result.2 ∧
        after.Abreast (.session unread) (fun _ => False) after')
      shell.round recorder (shell'.runLine line) recorder' := by
    refine .from_left hround (.from_right (fun _ _ => runLine_of_job shell' line recorder') ?_)
    refine Alike.bind (Alike.mono (Job.run_tandem hload hb (.ofLine line)) (fun _ _ => sameReports)
      fun _ _ _ _ hpost => hpost) ?_
    rintro ⟨status, ended⟩ ⟨status', ended'⟩ _ _ ⟨⟨-, hs⟩, h⟩
    exact .pure ⟨hs, h⟩
  rw [turn_running hr]
  refine hjob.bind_left ?_
  rintro ended _ after _ ⟨hs, h⟩
  exact ⟨_, after, .pure _ _, ended, unread, rfl, hs, h, hunread.imp_right And.left⟩

/-- Lines that can be typed: without a newline, and not longer than the buffer. -/
def Typable (line : String) : Prop :=
  '\n' ∉ line.toList ∧ (Text.encode line).length ≤ maxLineLength

instance (line : String) : Decidable (Typable line) := inferInstanceAs (Decidable (_ ∧ _))

/-- The loop on typed lines, and the lines one after the other. -/
theorem turns_alike_runLines {lines : List String} (hl : ∀ line ∈ lines, Typable line)
    {shell shell' : Shell} {recorder recorder' : Recorder} (hr : shell.running)
    (hs : shell.Abreast false shell')
    (h : recorder.Abreast (.session (typed lines)) (fun _ => False) recorder') :
    Alike Recorder.host SameReports
      (fun last last' after after' => last.lastStatus = last'.lastStatus ∧ SameReports after after')
      (Action.iterate turn shell) recorder (shell'.runLines lines) recorder' := by
  induction lines generalizing shell shell' recorder recorder' with
  | nil =>
    obtain ⟨last, after, hround, h, hstopped, hstatus⟩ := shell.round_end h
    have hturn : ComesTo Recorder.host (turn shell) recorder (.returned (.inl last)) after := by
      rw [turn_running hr]
      exact hround.bind (.pure _ _)
    have hlast : ComesTo Recorder.host (turn last) after (.returned (.inr last)) after := by
      rw [turn_stopped hstopped]
      exact .pure _ _
    exact .returned (hturn.iterate_next (.iterate_last hlast)) (.pure _ _)
      ⟨hstatus.trans hs.lastStatus, sameReports h⟩
  | cons line rest ih =>
    obtain ⟨hline, hrest⟩ := List.forall_mem_cons.1 hl
    rw [typed_cons] at h
    refine .from_left (fun _ _ => ComesTo.iterate) ?_
    refine (turn_tandem_runLine hr hline.1 hline.2 hs h).bind ?_
    rintro _ ⟨status, ended'⟩ after after' ⟨ended, unread, rfl, hs, h, hunread⟩
    have hs : ended.Abreast false ended' := hs
    simp only [Sum.elim_inl, ← hs.running]
    by_cases he : ended.running
    · simp only [he, if_true]
      rcases hunread with rfl | rfl
      · exact ih hrest he hs h
      · obtain ⟨next, between, hn, hb, hturn⟩ := blank_turn he h
        exact .iterate_left hturn (ih hrest (hn.running.trans he) (hn.trans hs) hb)
    · have hlast : ComesTo Recorder.host (turn ended) after (.returned (.inr ended)) after := by
        rw [turn_stopped (by simpa using he)]
        exact .pure _ _
      simp only [he, Bool.false_eq_true, if_false]
      exact .returned (.iterate_last hlast) (.pure _ _) ⟨hs.lastStatus, sameReports h⟩

/-- A shell that reads its lines makes the calls and the reports of one that is given them one after
the other, and ends with the same status, or exits with it. -/
theorem runLoop_runLines {lines : List String} (hl : ∀ line ∈ lines, Typable line)
    (recorder : Recorder) :
    Alike Recorder.host SameReports
      (fun result last after after' => result.1 = last.lastStatus ∧
        result.2.lastStatus = last.lastStatus ∧ SameReports after after')
      (runLoop {}) { recorder with input := typed lines } (runLines {} lines) recorder := by
  have h : (recorder.left (typed lines)).Abreast (.session (typed lines)) (fun _ => False)
      recorder := ⟨rfl, rfl, fun _ => rfl, fun _ => rfl, fun _ => False.elim⟩
  rw [runLoop_eq]
  refine (turns_alike_runLines hl rfl (.refl false {}) h).bind_left ?_
  rintro last last' after after' ⟨hstatus, hsame⟩
  exact ⟨_, _, .bind (.call rfl) (.bind (display_comesTo ..) (.pure _ _)), hstatus, hstatus,
    hsame.put_left _⟩

/-- A line as long as the buffer, children in the background, and a line that stops the shell. -/
theorem runLoop_runLines_full :
    let lines := ["sleep 9 | wc &", String.ofList (List.replicate maxLineLength 'x'), "cat < notes",
      "quit 3", "ls"]
    let recorder : Recorder := { badPaths := ["notes"], execStatus := 2 }
    (∀ line ∈ lines, Typable line) ∧ Alike Recorder.host SameReports
      (fun result last after after' => result.1 = last.lastStatus ∧
        result.2.lastStatus = last.lastStatus ∧ SameReports after after')
      (runLoop {}) { recorder with input := typed lines } (runLines {} lines) recorder := by
  intro lines recorder
  have hfull : Typable (String.ofList (List.replicate maxLineLength 'x')) := by
    have hbytes : (String.utf8EncodeChar 'x').length = 1 := by decide
    exact ⟨by simp [List.mem_replicate], by simp [Text.encode, List.flatMap_replicate, hbytes]⟩
  have hl : ∀ line ∈ lines, Typable line := by
    simp only [lines, List.forall_mem_cons]
    exact ⟨by decide +kernel, hfull, by decide +kernel, by decide +kernel, by decide +kernel,
      by simp⟩
  exact ⟨hl, runLoop_runLines hl recorder⟩

end Shell

end TinyShell
