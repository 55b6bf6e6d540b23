import TinyShell.Proofs.Shell.Listening
import TinyShell.Proofs.Shell.Preparation

/-!
# Lines that a read error cuts off

`Shell.round_cutOff`: what a session makes of a read that fails, whatever was answered before. If
the error comes before the first byte of a line, the shell tells of it and stops with status 1, and
nothing is run. If only one byte came before it, nobody learns of the error: what was read of the
line is run as if it were all of it, and the session goes on. `Shell.getCommand_cutOff_script` is
such a line.

`LineBuffer.readBytes_cutOff` follows the bytes up to the error. The rest of a round is shown to be
silent: `Action.Silent.messages_eq_nil` says when an action gives no messages of a level.
-/

namespace TinyShell

open Text (Bytes)
open TinyShell.Action (Calls trace)

variable {σ α β : Type}

/-! ## Silence -/

/-- No message of this level is given, and no child is started. -/
abbrev Action.Silent (level : Level) (action : Action α) : Prop :=
  Calls (fun request => ∀ message, request ≠ .report level message) (fun _ => False) action

theorem Action.Silent.messages_eq_nil {level : Level} {action : Action α}
    (h : Action.Silent level action) (host : Host σ) (bound : Nat) (state : σ) :
    messages level (trace host bound action state).moves = [] := by
  refine List.filterMap_eq_nil_iff.2 fun move hm => ?_
  have hallowed := h.moves host bound state move hm
  cases move with
  | executed | forked => rfl
  | asked before request reply =>
    cases request with
    | report other message =>
      refine if_neg ?_
      rintro rfl
      exact hallowed message rfl
    | _ => rfl

/-- What is heard in a sequence that begins in silence is heard in its second part. -/
theorem Run.bind_of_heard {fd : Descriptor} {reply : Reading} {run : Run σ α}
    {next : α → σ → Run σ β} (hs : heard fd run.moves = [])
    (hm : reply ∈ heard fd (run.bind next).moves) :
    ∃ value last, run.result = some (.returned value, last) ∧
      reply ∈ heard fd (next value last).moves := by
  obtain ⟨moves, _ | ⟨value | status, last⟩⟩ := run
  · have hnone : reply ∈ heard fd moves := hm
    simp [show heard fd moves = [] from hs] at hnone
  · refine ⟨value, last, rfl, ?_⟩
    have hall : reply ∈ heard fd (moves ++ (next value last).moves) := hm
    simpa [show heard fd moves = [] from hs] using hall
  · have hnone : reply ∈ heard fd moves := hm
    simp [show heard fd moves = [] from hs] at hnone

/-- What is heard in a sequence that goes on in silence is heard in its first part. -/
theorem Run.heard_bind {fd : Descriptor} {run : Run σ α} {next : α → σ → Run σ β}
    (hn : ∀ value last, heard fd (next value last).moves = []) :
    heard fd (run.bind next).moves = heard fd run.moves := by
  obtain ⟨moves, _ | ⟨value | status, last⟩⟩ := run
  · rfl
  · simp [Run.bind, Run.after, hn value last]
  · rfl

/-! ## Bytes before an error -/

/-- The byte that a read came to. -/
def Reading.byte? : Reading → Option UInt8
  | .ok (byte :: _) => some byte
  | _ => none

/-- The bytes of replies. -/
def receivedBytes (replies : List Reading) : Bytes := replies.filterMap Reading.byte?

namespace LineBuffer

theorem Holds.eq {buffer other : LineBuffer} {bytes : Bytes} (h : buffer.Holds bytes)
    (h' : other.Holds bytes) : buffer = other := by
  obtain ⟨room, length, hle⟩ := buffer
  obtain ⟨room', length', hle'⟩ := other
  obtain rfl : length = length' := h.length.trans h'.length.symm
  obtain rfl : room = room' := Vector.toList_inj.1 (h.room.trans h'.room.symm)
  rfl

theorem Holds.isEmpty_iff {buffer : LineBuffer} {bytes : Bytes} (h : buffer.Holds bytes) :
    buffer.isEmpty ↔ bytes = [] := by
  rw [isEmpty, decide_eq_true_iff, h.length, List.length_eq_zero_iff]

variable {fd : Descriptor} {errno : Errno}

/-- What an error other than an interruption makes of a line. -/
theorem afterReply_error (buffer : LineBuffer) (hne : errno ≠ .eintr) :
    buffer.afterReply (.error errno) =
      .inr (if buffer.isEmpty then .failed errno else .line buffer.length, buffer) := by
  cases errno <;> first | rfl | exact absurd rfl hne

/-- As long as there is more to read, the buffer takes the byte that was read, if it was one. -/
theorem Holds.afterReply {buffer next : LineBuffer} {held : Bytes} (h : buffer.Holds held)
    (hroom : buffer.length < maxLineLength) {reply : Reading}
    (ha : buffer.afterReply reply = .inl next) : next.Holds (held ++ reply.byte?.toList) := by
  rcases reply with errno | _ | ⟨byte, rest⟩
  · by_cases hi : errno = .eintr
    · subst hi
      obtain rfl : buffer = next := by simpa [LineBuffer.afterReply] using ha
      simpa [Reading.byte?] using h
    · rw [afterReply_error buffer hi] at ha
      cases ha
  · cases ha
  · by_cases hb : byte = 10
    · simp [LineBuffer.afterReply, hb] at ha
    · obtain rfl : buffer.push byte = next := by simpa [LineBuffer.afterReply, hb] using ha
      exact h.push (h.length ▸ hroom) byte

/-- The error is the last that is heard of a line, and the line has the bytes before it. -/
theorem readBytes_cutOff (host : Host σ) (limit bound : Nat) (hne : errno ≠ .eintr)
    {buffer : LineBuffer} {held : Bytes} (h : buffer.Holds held) {state : σ}
    (hm : .error errno ∈ heard fd (Action.traceRounds
      (fun buffer state => trace host limit (readByte fd buffer) state) bound buffer state).moves) :
    ∃ moves replies filled last,
      Action.traceRounds (fun buffer state => trace host limit (readByte fd buffer) state) bound
        buffer state = ⟨moves, some (.returned
          (if filled.isEmpty then .failed errno else .line filled.length, filled), last)⟩ ∧
      heard fd moves = replies ++ [.error errno] ∧
      filled.Holds (held ++ receivedBytes replies) := by
  induction bound generalizing buffer held state with
  | zero => simp [Action.traceRounds] at hm
  | succ bound ih =>
    rw [Action.traceRounds] at hm ⊢
    rcases Nat.lt_or_ge buffer.length maxLineLength with hroom | hfull
    · rw [trace_readByte host limit fd hroom, Run.bind_of_returned rfl] at hm ⊢
      rw [Run.after_moves, heard_append, heard_cons_read, heard_nil] at hm
      rcases ha : buffer.afterReply (host.answer (.read fd 1) state).1 with next | result
      · have hlater : (host.answer (.read fd 1) state).1 ≠ .error errno := by
          intro hr
          rw [hr, afterReply_error buffer hne] at ha
          cases ha
        simp only [ha] at hm ⊢
        obtain ⟨moves, replies, filled, last, hrun, hheard, hfilled⟩ := ih (h.afterReply hroom ha)
          ((List.mem_append.1 hm).resolve_left fun hm => hlater (List.mem_singleton.1 hm).symm)
        refine ⟨_, (host.answer (.read fd 1) state).1 :: replies, filled, last,
          by rw [hrun, Run.after], by rw [heard_append, heard_cons_read, hheard]; rfl, ?_⟩
        have hbytes : receivedBytes ((host.answer (.read fd 1) state).1 :: replies) =
            (Reading.byte? (host.answer (.read fd 1) state).1).toList ++ receivedBytes replies := by
          rcases hb : Reading.byte? (host.answer (.read fd 1) state).1 with _ | byte <;>
            simp [receivedBytes, hb]
        rwa [hbytes, ← List.append_assoc]
      · rw [ha] at hm
        obtain hr : .error errno = (host.answer (.read fd 1) state).1 := by
          simpa [Run.pure] using hm
        rw [← hr, afterReply_error buffer hne] at ha
        obtain rfl := Sum.inr.inj ha
        refine ⟨_, [], buffer, _, rfl, ?_, by simpa [receivedBytes] using h⟩
        rw [← hr]
        exact heard_cons_read ..
    · rw [trace_readByte_full host limit fd hfull, Run.pure_bind] at hm
      simp [Run.pure] at hm

end LineBuffer

/-! ## The command after it -/

namespace Shell

/-- The faults of a line are advice to the user. -/
theorem parseLine_silent (shell : Shell) (line : String) :
    Action.Silent .system (shell.parseLine line) :=
  Calls.loopRules.parseLine (by simp) shell line

/-- A line is parsed without a word to the maintainer, whatever is in it. -/
theorem parseLine_returns (host : Host σ) (bound : Nat) (shell : Shell) (line : String)
    (state : σ) :
    ∃ moves last, trace host bound (shell.parseLine line) state = ⟨moves, some (.returned
        { shell with tokens := .ofLine line, command := .ofLine line }, last)⟩ ∧
      messages .system moves = [] ∧ heard .input moves = [] := by
  have hparse := parseLine_offhand shell line
  obtain ⟨⟨ending, last⟩, hr⟩ :=
    Option.isSome_iff_exists.1 (hparse.loopless.isSome host bound state)
  have hend : ending.Returned _ := parseLine_ensures shell line σ host bound state ending last
    (by rw [← Action.trace_result]; exact hr)
  rcases ending with value | status
  · obtain rfl : value = _ := hend
    have hsilent := (parseLine_silent shell line).messages_eq_nil host bound state
    exact ⟨_, last, by rw [← hr], hsilent,
      (Action.Chore.offhand hparse).calls.heard_eq_nil host bound state⟩
  · exact hend.elim

/-- The error is told, and the shell stops with status 1. There is no command. -/
structure Heeds (shell : Shell) (errno : Errno) (moves : List (Move σ)) (value : Bool × Shell) :
    Prop where
  told : messages .system moves = ["read failed: " ++ errno.text]
  value : value = (false, { shell with line := .empty, running := false, lastStatus := 1 })

/-- Nothing is told, and these bytes are the line of the next command. -/
structure PassesOver (shell : Shell) (bytes : Bytes) (moves : List (Move σ))
    (value : Bool × Shell) : Prop where
  untold : messages .system moves = []
  value : ∃ line : LineBuffer, line.Holds bytes ∧ value =
    (true, { shell with line, tokens := .ofLine line.text, command := .ofLine line.text })

/-- A read that failed is the last one of its line. The shell heeds it if the line has no byte yet,
and else passes it over. -/
theorem getCommand_cutOff (hne : errno ≠ .eintr) {shell : Shell} {state : σ}
    (hm : .error errno ∈ heard .input (trace host bound shell.getCommand state).moves) :
    ∃ moves value last replies,
      trace host bound shell.getCommand state = ⟨moves, some (.returned value, last)⟩ ∧
      heard .input moves = replies ++ [.error errno] ∧
      (receivedBytes replies = [] → shell.Heeds errno moves value) ∧
      (receivedBytes replies ≠ [] → shell.PassesOver (receivedBytes replies) moves value) := by
  rw [getCommand, Action.trace_bind] at hm ⊢
  have hquiet : heard .input (trace host bound (display "prompt" shell.prompt) state).moves = [] :=
    (Action.Chore.display ..).calls.heard_eq_nil host bound state
  have hprompting : Action.Silent .system (display "prompt" shell.prompt) := .display (by simp) _ _
  have hunsaid := hprompting.messages_eq_nil host bound state
  obtain ⟨_, mid, hprompt, hm⟩ := Run.bind_of_heard hquiet hm
  rw [Run.bind_of_returned hprompt]
  rw [Action.trace_bind] at hm ⊢
  have hread := LineBuffer.trace_read host bound .input shell.line mid
  rw [Run.heard_bind ?silent, hread] at hm
  case silent =>
    rintro ⟨_ | _ | errno, line⟩ last
    · exact (Action.Chore.bind (.offhand (parseLine_offhand _ _)) fun _ =>
        .pure _).calls.heard_eq_nil host bound last
    · exact (Action.Chore.pure _).calls.heard_eq_nil host bound last
    · exact (Action.Chore.bind (.report _ _) fun _ =>
        .pure _).calls.heard_eq_nil host bound last
  have hreading : Action.Silent .system (shell.line.read .input) :=
    Calls.loopRules.read (by simp) _
  have hsilent := hreading.messages_eq_nil host bound mid
  obtain ⟨moves, replies, filled, last, hrun, hheard, hfilled⟩ :=
    LineBuffer.readBytes_cutOff host bound bound hne LineBuffer.holds_empty hm
  rw [List.nil_append] at hfilled
  rw [hread, hrun] at hsilent ⊢
  rw [Run.bind_of_returned rfl]
  by_cases hbytes : receivedBytes replies = []
  · obtain rfl : filled = .empty := (hbytes ▸ hfilled).eq LineBuffer.holds_empty
    have hfirst : LineBuffer.empty.isEmpty = true := rfl
    simp only [hfirst, if_true]
    rw [Action.trace_bind, Action.trace_report]
    refine ⟨_, _, _, replies, rfl, ?_, fun _ => ⟨?_, rfl⟩, absurd hbytes⟩
    · simp only [Run.bind, Run.after, heard_append, hquiet, hheard]
      exact List.append_nil _
    · simp only [Run.bind, Run.after, messages_append, hunsaid, hsilent]
      rfl
  · have hfull : filled.isEmpty = false := by
      simpa using mt hfilled.isEmpty_iff.1 hbytes
    simp only [hfull, Bool.false_eq_true, if_false]
    obtain ⟨parsing, last, hparse, hsaid, hparsed⟩ :=
      parseLine_returns host bound { shell with line := filled } filled.text last
    rw [Action.trace_bind, hparse]
    refine ⟨_, _, _, replies, rfl, ?_, (absurd · hbytes), fun _ => ⟨?_, filled, hfilled, rfl⟩⟩
    · simp [Run.bind, Run.after, Run.pure, hquiet, hheard, hparsed]
    · simp [Run.bind, Run.after, Run.pure, hunsaid, hsilent, hsaid]

/-- A read error other than an interruption, in a round of a session. Before the first byte of a
line it ends the round, told and with status 1, and no command is run. Behind a byte it is passed
over, and what there is of the line is run as a command like any other. -/
theorem round_cutOff (hne : errno ≠ .eintr) {shell : Shell} {state : σ}
    (hm : .error errno ∈ heard .input (trace host bound shell.round state).moves) :
    ∃ reaping reaped mid moves value last replies,
      trace host bound shell.reap state = ⟨reaping, some (.returned reaped, mid)⟩ ∧
      trace host bound reaped.getCommand mid = ⟨moves, some (.returned value, last)⟩ ∧
      heard .input moves = replies ++ [.error errno] ∧
      (receivedBytes replies = [] → reaped.Heeds errno moves value ∧
        trace host bound shell.round state =
          ⟨reaping ++ moves, some (.returned value.2, last)⟩) ∧
      (receivedBytes replies ≠ [] → reaped.PassesOver (receivedBytes replies) moves value ∧
        trace host bound shell.round state =
          ((trace host bound (Job.run value.2 value.2.command) last).bind
            fun result state => .pure result.2 state).after (reaping ++ moves)) := by
  have hquiet : heard .input (trace host bound shell.reap state).moves = [] :=
    (reap_chore shell).calls.heard_eq_nil host bound state
  rw [round, Action.trace_bind] at hm ⊢
  obtain ⟨reaped, mid, hreap, hm⟩ := Run.bind_of_heard hquiet hm
  rw [Action.trace_bind, Run.heard_bind ?silent] at hm
  case silent =>
    rintro ⟨_ | _, after⟩ last
    · rfl
    · exact ((Job.run_chore after after.command).bind fun _ => .pure _).calls.heard_eq_nil
        host bound last
  obtain ⟨moves, value, last, replies, hget, hheard, hheeds, hpasses⟩ := getCommand_cutOff hne hm
  refine ⟨_, reaped, mid, moves, value, last, replies, by rw [← hreap], hget, hheard,
    fun hbytes => ⟨hheeds hbytes, ?_⟩, fun hbytes => ⟨hpasses hbytes, ?_⟩⟩
  · obtain ⟨-, rfl⟩ := hheeds hbytes
    rw [Run.bind_of_returned hreap, Action.trace_bind, hget, Run.bind_of_returned rfl]
    simp [Run.after, Run.pure]
  · obtain ⟨-, line, -, rfl⟩ := hpasses hbytes
    rw [Run.bind_of_returned hreap, Action.trace_bind, hget, Run.bind_of_returned rfl,
      Run.after_after]
    simp only [if_true]
    rw [Action.trace_bind]
    rfl

/-- An interruption, and then the error before the first byte of a line. -/
theorem round_cutOff_script :
    let script : Script := { input := [.failure .eintr, .failure .eio, .byte 108] }
    let run := trace Script.host 3 (round {}) script
    Errno.eio ≠ .eintr ∧ .error .eio ∈ heard .input run.moves ∧
    ∃ reaping reaped mid moves value last replies,
      trace Script.host 3 (reap {}) script = ⟨reaping, some (.returned reaped, mid)⟩ ∧
      trace Script.host 3 reaped.getCommand mid = ⟨moves, some (.returned value, last)⟩ ∧
      heard .input moves = replies ++ [.error .eio] ∧
      (receivedBytes replies = [] → reaped.Heeds .eio moves value ∧
        run = ⟨reaping ++ moves, some (.returned value.2, last)⟩) ∧
      (receivedBytes replies ≠ [] → reaped.PassesOver (receivedBytes replies) moves value ∧
        run = ((trace Script.host 3 (Job.run value.2 value.2.command) last).bind
          fun result state => .pure result.2 state).after (reaping ++ moves)) := by
  intro script run
  have hm : .error .eio ∈ heard .input run.moves := by
    have : heard .input run.moves = [.error .eintr, .error .eio] := by decide +kernel
    simp [this]
  exact ⟨by decide, hm, round_cutOff (by decide) hm⟩

/-- The error comes behind the "rm a" of some longer line. The shell has a command all the same,
goes on, keeps the status that it had and tells the maintainer nothing; and a round of a session
runs what is there. -/
theorem getCommand_cutOff_script :
    let script : Script :=
      { input := [.byte 114, .byte 109, .byte 32, .byte 97, .failure .eio] }
    let run := trace Script.host 6 (getCommand {}) script
    heard .input run.moves = [.ok [114], .ok [109], .ok [32], .ok [97], .error .eio] ∧
      messages .system run.moves = [] ∧
      (∃ after last, run.result = some (.returned (true, after), last) ∧ after.running ∧
        after.lastStatus = 0 ∧ after.line.text = "rm a") ∧
      ((Ledger.of (trace Script.host 6 (round {}) script).moves).forks.map fun fork =>
        (Ledger.of fork.child).executions.map Execution.argv) = [[["rm", "a"]]] := by
  intro script run
  have hresult : run.result.map (fun (ending, _) => match ending with
      | .returned (ready, after) => some (ready, after.running, after.lastStatus, after.line.text)
      | .exited _ => none) = some (some (true, true, 0, "rm a")) := by decide +kernel
  have hheard : heard .input run.moves =
      [.ok [114], .ok [109], .ok [32], .ok [97], .error .eio] := by decide +kernel
  have htold : messages .system run.moves = [] := by decide +kernel
  refine ⟨hheard, htold, ?_, by decide +kernel⟩
  rcases hr : run.result with _ | ⟨⟨ready, after⟩ | status, last⟩ <;> rw [hr] at hresult
  · cases hresult
  · simp only [Option.map_some, Option.some.injEq, Prod.mk.injEq] at hresult
    obtain ⟨rfl, hgo, hlast, htext⟩ := hresult
    exact ⟨after, last, rfl, hgo, hlast, htext⟩
  · cases hresult

end Shell

end TinyShell
