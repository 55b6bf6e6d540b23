import TinyShell.Proofs.Rehearsal.Plan
import TinyShell.Proofs.Shell.Listening

/-!
# The rounds of a session

`Shell.runLoop_ends`: a session ends as soon as its input does, if writes are not interrupted for
ever. No other outcome matters. It is not the loop that counts down: a prompt that gets a line has
read a byte for it, and any other prompt stops the shell, so there are at most as many rounds as
bytes and one more (`Shell.length_rounds_le`).
-/

namespace TinyShell

open TinyShell.Action (Advances Ends Limited Loopless trace)

variable {σ : Type}

/-! ## Chores that go on -/

/-- There is less to write after a write, unless it was interrupted. -/
theorem writeSome_progress (host : Host σ) (bound : Nat) (fd : Descriptor) (bytes next : Text.Bytes)
    (state after : σ) (hr : (trace host bound (writeSome fd bytes) state).result =
      some (.returned (.inl next), after)) :
    0 < (trace host bound (writeSome fd bytes) state).moves.countP Move.isInterrupted ∨
      next.length < bytes.length := by
  by_cases hne : bytes = []
  · subst hne
    cases hr
  rw [trace_writeSome host bound fd hne] at hr ⊢
  have hnext : writeOutcome bytes (host.answer (.write fd bytes) state).1 = .inl next := by
    simp only [Option.some.injEq, Prod.mk.injEq, Ending.returned.injEq] at hr
    exact hr.1
  rcases writeOutcome_eq_inl hnext with ⟨hreply, -⟩ | ⟨taken, -, rfl⟩
  · rw [hreply]
    exact .inl Nat.zero_lt_one
  · have hpos := List.length_pos_iff.2 hne
    rw [List.length_drop]
    omega

namespace Action

variable {α : Type} {host : Host σ} {marked : Move σ → Bool}

theorem display_advances (hm : ∀ move : Move σ, move.isInterrupted → marked move)
    (label text : String) (state : σ) : Advances host marked (display label text) state := by
  refine Advances.bind (.iterate List.length (fun bytes state => ?_)
    (fun bytes state bound next after hr => ?_) _ state) fun _ result after _ => ?_
  · refine Ends.advances ⟨0, ?_⟩
    by_cases hne : bytes = []
    · subst hne
      rfl
    · rw [trace_writeSome host 0 .output hne]
      rfl
  · refine (writeSome_progress host bound .output bytes next state after hr).imp_left fun hpos => ?_
    exact Nat.lt_of_lt_of_le hpos (List.countP_mono_left fun move _ => hm move)
  · rcases result with errno | _
    · exact ((Loopless.note (.pure ())).ends host after).advances
    · exact ((Loopless.pure ()).ends host after).advances

/-- A chore that does not end is interrupted for ever. -/
theorem Chore.advances (hm : ∀ move : Move σ, move.isInterrupted → marked move)
    {action : Action α} (h : Chore action) (state : σ) : Advances host marked action state := by
  induction h generalizing state with
  | offhand ho => exact (ho.loopless.ends host state).advances
  | wait pid | tryWait pid => exact ((Loopless.ask fun _ => .done _).ends host state).advances
  | display label text => exact display_advances hm label text state
  | fork hc => exact ((Loopless.spawn hc.loopless fun _ => .done _).ends host state).advances
  | bind _ _ ih ihn => exact (ih state).bind fun _ value after _ => ihn value after

end Action

/-! ## Rounds -/

namespace Shell

/-- The rounds of a session, up to so many, each with all that was done in it. -/
def rounds (host : Host σ) (bound : Nat) : (count : Nat) → Shell → σ → List (Run σ Shell)
  | 0, _, _ => []
  | count + 1, shell, state =>
    if shell.running then
      let run := trace host bound shell.round state
      run :: match run.result with
        | some (.returned next, after) => rounds host bound count next after
        | _ => []
    else []

/-- The bytes that a session has read. -/
def bytesRead (moves : List (Move σ)) : Nat := (heard .input moves).countP Reading.isByte

@[simp]
theorem bytesRead_append (first second : List (Move σ)) :
    bytesRead (first ++ second) = bytesRead first + bytesRead second := by
  rw [bytesRead, heard_append, List.countP_append, bytesRead, bytesRead]

theorem bytesRead_pos {moves : List (Move σ)} (h : ∃ reply ∈ heard .input moves, reply.isByte) :
    0 < bytesRead moves := List.countP_pos_iff.2 h

section
variable {host : Host σ} {bound : Nat} {shell : Shell} {state : σ}

theorem rounds_stopped (hr : shell.running = false) (count : Nat) :
    rounds host bound count shell state = [] := by
  cases count with
  | zero => rfl
  | succ count => rw [rounds, if_neg (ne_true_of_eq_false hr)]

theorem rounds_next {next : Shell} {after : σ} (hr : shell.running)
    (h : (trace host bound shell.round state).result = some (.returned next, after))
    (count : Nat) : rounds host bound (count + 1) shell state =
      trace host bound shell.round state :: rounds host bound count next after := by
  simp only [rounds, hr, if_true, h]

theorem rounds_last (hr : shell.running)
    (h : ∀ next after, (trace host bound shell.round state).result ≠ some (.returned next, after))
    (count : Nat) : rounds host bound (count + 1) shell state =
      [trace host bound shell.round state] := by
  simp only [rounds, hr, if_true]

end

variable {host : Host σ} {bound : Nat}

/-- Between the rounds nothing is done. -/
theorem turns_moves (count : Nat) (shell : Shell) (state : σ) :
    (turns host bound count shell state).moves =
      (rounds host bound count shell state).flatMap Run.moves := by
  induction count generalizing shell state with
  | zero => rfl
  | succ count ih =>
    rw [turns, Action.traceRounds]
    by_cases hr : shell.running
    · rw [turn_running hr, Action.trace_bind, Run.bind_assoc]
      rcases hround : (trace host bound shell.round state).result with
        _ | ⟨next | status, after⟩
      · rw [rounds_last hr (by simp [hround]), Run.bind_of_none hround]
        simp
      · rw [rounds_next hr hround, Run.bind_of_returned hround]
        exact congrArg (_ ++ ·) (ih next after)
      · rw [rounds_last hr (by simp [hround]), Run.bind_of_exited hround]
        simp
    · rw [turn_stopped (by simpa using hr), rounds_stopped (by simpa using hr)]
      rfl

/-- Each round has a byte of its own, but for the last. -/
theorem length_rounds_le (count : Nat) (shell : Shell) (state : σ) :
    (rounds host bound count shell state).length ≤
      bytesRead ((rounds host bound count shell state).flatMap Run.moves) + 1 := by
  induction count generalizing shell state with
  | zero => exact Nat.zero_le _
  | succ count ih =>
    by_cases hr : shell.running
    · by_cases hround : ∃ next after,
          (trace host bound shell.round state).result = some (.returned next, after)
      · obtain ⟨next, after, hround⟩ := hround
        rw [rounds_next hr hround, List.length_cons, List.flatMap_cons, bytesRead_append]
        by_cases hnext : next.running
        · obtain ⟨_, hbyte, -⟩ := (round_follows hr state).of_returned hround
          have hpos := bytesRead_pos (hbyte hnext)
          have hrest := ih next after
          omega
        · rw [rounds_stopped (by simpa using hnext)]
          exact Nat.le_add_left 1 _
      · rw [rounds_last hr fun next after h => hround ⟨next, after, h⟩]
        exact Nat.le_add_left 1 _
    · rw [rounds_stopped (by simpa using hr)]
      exact Nat.zero_le _

/-- A session is its rounds, and a farewell that reads nothing. -/
theorem runLoop_moves (shell : Shell) (state : σ) : ∃ farewell,
    (trace host bound shell.runLoop state).moves =
      (rounds host bound bound shell state).flatMap Run.moves ++ farewell ∧
    heard .input farewell = [] := by
  rw [trace_runLoop, ← turns_moves]
  rcases hr : (turns host bound bound shell state).result with _ | ⟨after | status, mid⟩
  · rw [Run.bind_of_none hr]
    exact ⟨[], (List.append_nil _).symm, rfl⟩
  · rw [Run.bind_of_returned hr]
    refine ⟨_, rfl, ?_⟩
    have hquiet : heard .input (trace host bound (after.takeLeave >>= fun last =>
        pure (last.lastStatus, last)) mid).moves = [] :=
      ((takeLeave_chore after).bind fun _ => .pure _).calls.heard_eq_nil host bound mid
    rw [Action.trace_bind] at hquiet
    exact hquiet
  · rw [Run.bind_of_exited hr]
    exact ⟨[], (List.append_nil _).symm, rfl⟩

/-- A prompt that gets a line has read a byte, and any other one stops the shell. -/
theorem getCommand_paid (shell : Shell) (state : σ) {ready : Bool} {after : Shell} {last : σ}
    (hr : (trace host bound shell.getCommand state).result =
      some (.returned (ready, after), last)) :
    if ready then 0 < bytesRead (trace host bound shell.getCommand state).moves
    else after.running = false := by
  obtain ⟨phase, hp⟩ := (getCommand_follows shell state).of_returned hr
  cases hp with
  | line hbyte => exact bytesRead_pos hbyte
  | endOfInput _ hstop | failed _ _ hstop => exact hstop

/-- A session ends if its input and the interruptions of its writes do, whatever else the system
answers. Its rounds are all that it does before its farewell, and there are at most as many of them
as bytes that it has read, and one more: each prompt reads a byte for its line, or is the last. -/
theorem runLoop_ends {host : Host σ} (shell : Shell) {state : σ}
    (hinput : Limited host Move.findsInput shell.runLoop state)
    (hwrites : Limited host Move.isInterrupted shell.runLoop state) :
    Ends host shell.runLoop state ∧
    (∀ bound, (∃ farewell, (trace host bound shell.runLoop state).moves =
        (rounds host bound bound shell state).flatMap Run.moves ++ farewell ∧
          heard .input farewell = []) ∧
      (rounds host bound bound shell state).length ≤
        bytesRead (trace host bound shell.runLoop state).moves + 1) ∧
    ∀ bound (shell : Shell) state ready after last,
      (trace host bound shell.getCommand state).result = some (.returned (ready, after), last) →
        if ready then 0 < bytesRead (trace host bound shell.getCommand state).moves
        else after.running = false := by
  have hmarks : Marks host fun move => move.findsInput || move.isInterrupted := by
    refine ⟨fun move reply hm he => ?_, fun hc state => hc.advances (fun move hi => ?_) state⟩
    · simp [Move.findsInput, hm, he]
    · simp [hi]
  refine ⟨(runLoop_advances hmarks shell state).ends (hinput.or hwrites), fun bound => ?_,
    fun bound shell state ready after last hr => getCommand_paid shell state hr⟩
  have hmoves := @runLoop_moves σ host bound shell state
  refine ⟨hmoves, ?_⟩
  obtain ⟨farewell, heq, -⟩ := hmoves
  have hle := @length_rounds_le σ host bound bound shell state
  rw [heq, bytesRead_append]
  omega

/-- Reads and writes that are interrupted or fail, and an input with an end in the middle. -/
theorem runLoop_ends_script :
    let shell : Shell := {}
    let script : Script := {
      input := [.failure .eintr, .byte 120, .failure .eio, .endOfInput, .byte 10]
      plan := [(.write, .failure .eintr), (.write, .value 2), (.write, .failure .epipe)] }
    Limited Script.host Move.findsInput shell.runLoop script ∧
    Limited Script.host Move.isInterrupted shell.runLoop script ∧
    Ends Script.host shell.runLoop script ∧
    ∀ bound, (rounds Script.host bound bound shell script).length ≤
      bytesRead (trace Script.host bound shell.runLoop script).moves + 1 := by
  intro shell script
  have hinput := Script.host_stocks_input.limited shell.runLoop script
  have hwrites := Script.host_stocks_interruptions.limited shell.runLoop script
  obtain ⟨hends, hrounds, -⟩ := runLoop_ends shell hinput hwrites
  exact ⟨hinput, hwrites, hends, fun bound => (hrounds bound).2⟩

end Shell

end TinyShell
