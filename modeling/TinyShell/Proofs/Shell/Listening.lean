import TinyShell.Proofs.Shell.Chores

/-!
# What a session makes of its input

`Phase` is all that a session knows between two reads: the line that it is reading, or that it is
over, and how. `Phase.hear` is what one more reply makes of it, with nothing else to decide.
`Shell.runLoop_follows`: a session goes through these phases whatever else the system answers, and
it makes no read when it is over. `Shell.runLoop_listens`: it never gets stuck between two reads, as
long as no write is interrupted for ever.
-/

namespace TinyShell

open TinyShell.Action (trace Advances Ends Ensures Listens)

variable {σ α β : Type}

/-! ## Phases -/

/-- What a session knows between two reads. -/
inductive Phase where
  /-- A line is being read, and this is what there is of it. -/
  | reading (buffer : LineBuffer)
  /-- The session has its last line, or the end of its input. -/
  | over (ending : Ending Status)

namespace Phase

/-- The phase behind a command of this verdict. -/
def ofVerdict : Verdict → Phase
  | .goOn => .reading .empty
  | .stop given => .over (.returned (given.getD 0))
  | .leave status => .over (.exited status)

/-- The phase behind a line. -/
def behind (status : LineStatus) (buffer : LineBuffer) : Phase :=
  match status with
  | .line _ => ofVerdict (Command.ofLine buffer.text).verdict
  | .endOfInput => .over (.returned 0)
  | .failed _ => .over (.returned 1)

/-- The phase with more to read, unless the buffer is full, or behind a line. -/
def ofRound : LineBuffer ⊕ (LineStatus × LineBuffer) → Phase
  | .inl buffer =>
    if maxLineLength ≤ buffer.length then behind buffer.ended buffer else .reading buffer
  | .inr (status, buffer) => behind status buffer

/-- What a reply makes of a phase. -/
def hear : Phase → Reading → Phase
  | .reading buffer, reply => ofRound (buffer.afterReply reply)
  | .over ending, _ => .over ending

/-- From one phase to another by these replies. Nothing is heard that was not asked for. -/
inductive Hears : Phase → List Reading → Phase → Prop
  | nothing (phase : Phase) : Hears phase [] phase
  | reply {buffer : LineBuffer} {reply : Reading} {rest : List Reading} {phase : Phase} :
    Hears (hear (.reading buffer) reply) rest phase → Hears (.reading buffer) (reply :: rest) phase

/-- The phase in which a session begins. -/
def start : Phase := .reading .empty

variable {phase between last : Phase} {replies others : List Reading}

theorem ofRound_empty : ofRound (.inl .empty) = start := by
  rw [ofRound, if_neg (by decide), start]

namespace Hears

theorem append (h : Hears phase replies between) (h' : Hears between others last) :
    Hears phase (replies ++ others) last := by
  induction h with
  | nothing => exact h'
  | reply _ ih => exact .reply (ih h')

/-- Where the replies lead. -/
theorem foldl_hear (h : Hears phase replies last) : replies.foldl hear phase = last := by
  induction h with
  | nothing => rfl
  | reply _ ih => exact ih

/-- Once a session is over it does not hear more, so of two that hear the same as far as both hear
something, the one that is over has heard all that the other one has. -/
theorem length_le {ending : Ending Status} (h : Hears phase replies (.over ending))
    (h' : Hears phase others last)
    (hsame : ∀ (i : Nat) reply other, replies[i]? = some reply → others[i]? = some other →
      reply = other) : others.length ≤ replies.length := by
  generalize hover : Phase.over ending = final at h
  induction h generalizing others with
  | nothing =>
    subst hover
    cases h'
    exact Nat.le_refl 0
  | @reply buffer reply rest _ _ ih =>
    cases h' with
    | nothing => exact Nat.zero_le _
    | @reply _ other others _ h' =>
      obtain rfl : reply = other := hsame 0 reply other rfl rfl
      have hrest := ih h' (fun i => hsame (i + 1)) hover
      simpa using hrest

/-- Two that are over have heard the same and ended alike. -/
theorem unique {ending ending' : Ending Status} (h : Hears phase replies (.over ending))
    (h' : Hears phase others (.over ending'))
    (hsame : ∀ (i : Nat) reply other, replies[i]? = some reply → others[i]? = some other →
      reply = other) : replies = others ∧ ending = ending' := by
  have hle := h.length_le h' hsame
  have hge := h'.length_le h fun i other reply ho hr => (hsame i reply other hr ho).symm
  have hreplies : replies = others := by
    refine List.ext_getElem (Nat.le_antisymm hge hle) fun i hi hi' => ?_
    exact hsame i _ _ (List.getElem?_eq_getElem hi) (List.getElem?_eq_getElem hi')
  subst hreplies
  have hover : Phase.over ending = .over ending' := h.foldl_hear.symm.trans h'.foldl_hear
  exact ⟨rfl, by simpa using hover⟩

end Hears

end Phase

open Phase (Hears)

/-! ## Runs through phases -/

/-- The run hears its way from a phase to another. If it returns, `post` holds of what it heard, its
value and the phase; if it exits, this was in the phase. -/
inductive Run.Follows (start : Phase) (post : List Reading → α → Phase → Prop) : Run σ α → Prop
  | returned {moves : List (Move σ)} {value : α} {last : σ} {phase : Phase} :
    Hears start (heard .input moves) phase → post (heard .input moves) value phase →
      Follows start post ⟨moves, some (.returned value, last)⟩
  | exited {moves : List (Move σ)} {status : Status} {last : σ} :
    Hears start (heard .input moves) (.over (.exited status)) →
      Follows start post ⟨moves, some (.exited status, last)⟩
  | unfinished {moves : List (Move σ)} {phase : Phase} :
    Hears start (heard .input moves) phase → Follows start post ⟨moves, none⟩

namespace Run.Follows

variable {start : Phase} {post : List Reading → α → Phase → Prop}
  {post' : List Reading → β → Phase → Prop}

theorem pure {value : α} {state : σ} (h : post [] value start) :
    (Run.pure value state).Follows start post := .returned (.nothing start) h

theorem mono {post' : List Reading → α → Phase → Prop} {run : Run σ α} (h : run.Follows start post)
    (hp : ∀ replies value phase, post replies value phase → post' replies value phase) :
    run.Follows start post' := by
  cases h with
  | returned hh h => exact .returned hh (hp _ _ _ h)
  | exited hh => exact .exited hh
  | unfinished hh => exact .unfinished hh

theorem after {run : Run σ α} {earlier : List (Move σ)} {between : Phase}
    (he : Hears start (heard .input earlier) between)
    (h : run.Follows between fun replies => post (heard .input earlier ++ replies)) :
    (run.after earlier).Follows start post := by
  have hall (more : List (Move σ)) : heard .input (earlier ++ more) =
      heard .input earlier ++ heard .input more := heard_append earlier more
  cases h with
  | returned hh h => exact .returned (hall _ ▸ he.append hh) (hall _ ▸ h)
  | exited hh => exact .exited (hall _ ▸ he.append hh)
  | unfinished hh => exact .unfinished (hall _ ▸ he.append hh)

theorem bind {run : Run σ α} {next : α → σ → Run σ β} (h : run.Follows start post)
    (hn : ∀ replies value last phase, post replies value phase →
      (next value last).Follows phase fun more => post' (replies ++ more)) :
    (run.bind next).Follows start post' := by
  cases h with
  | returned hh h => exact (hn _ _ _ _ h).after hh
  | exited hh => exact .exited hh
  | unfinished hh => exact .unfinished hh

/-- A run that returned, with what it heard. -/
theorem of_returned {run : Run σ α} {value : α} {last : σ} (h : run.Follows start post)
    (hr : run.result = some (.returned value, last)) :
    ∃ phase, post (heard .input run.moves) value phase := by
  cases h with
  | returned _ h =>
    obtain ⟨rfl, -⟩ : _ = value ∧ _ = last := by simpa using hr
    exact ⟨_, h⟩
  | exited => simp at hr
  | unfinished => simp at hr

/-- A chore leaves the phase as it is, and ends as the phase allows it. -/
theorem chore {host : Host σ} {bound : Nat} {state : σ} {action : Action α}
    (hc : Action.Chore action)
    (he : Ensures action fun
      | .returned value => post [] value start
      | .exited status => start = .over (.exited status)) :
    (trace host bound action state).Follows start post := by
  have hnone : heard .input (trace host bound action state).moves = [] :=
    hc.calls.heard_eq_nil host bound state
  have hsilent : Hears start (heard .input (trace host bound action state).moves) start := by
    rw [hnone]
    exact .nothing start
  have hend (ending : Ending α) (last : σ)
      (hr : (trace host bound action state).result = some (ending, last)) :=
    he σ host bound state ending last (by rw [← Action.trace_result]; exact hr)
  rcases hrun : trace host bound action state with ⟨moves, _ | ⟨value | status, last⟩⟩ <;>
    rw [hrun] at hsilent hend hnone
  · exact .unfinished hsilent
  · refine .returned hsilent ?_
    rw [hnone]
    exact hend (.returned value) last rfl
  · have hover : start = .over (.exited status) := hend (.exited status) last rfl
    rw [hover] at hsilent ⊢
    exact .exited hsilent

/-- A chore that returns. -/
theorem chore_returned {host : Host σ} {bound : Nat} {state : σ} {action : Action α}
    {holds : α → Prop} (hc : Action.Chore action) (he : Ensures action (Ending.Returned holds)) :
    (trace host bound action state).Follows start fun replies value phase =>
      replies = [] ∧ phase = start ∧ holds value := by
  refine .chore hc (he.mono fun ending h => ?_)
  rcases ending with value | status
  · exact ⟨rfl, rfl, h⟩
  · exact h.elim

end Run.Follows

/-! ## A line -/

/-- What was heard last, by what came of the line. -/
def LineStatus.Told (replies : List Reading) : LineStatus → Prop
  | .line _ => True
  | .endOfInput => replies.getLast? = some (.ok [])
  | .failed errno => errno ≠ .eintr ∧ replies.getLast? = some (.error errno)

theorem LineStatus.Told.cons {replies : List Reading} {status : LineStatus}
    (h : status.Told replies) (reply : Reading) : status.Told (reply :: replies) := by
  cases status with
  | line => trivial
  | endOfInput => exact (List.getLast?_cons).trans (by rw [show replies.getLast? = _ from h]; rfl)
  | failed errno => exact ⟨h.1, (List.getLast?_cons).trans (by rw [h.2]; rfl)⟩

namespace LineBuffer

variable {buffer : LineBuffer}

/-- A full buffer holds a line. -/
theorem ended_told (h : maxLineLength ≤ buffer.length) : buffer.ended.Told [] := by
  have hpos : buffer.length ≠ 0 := Nat.ne_of_gt (Nat.lt_of_lt_of_le (by decide) h)
  rw [LineBuffer.ended, isEmpty, if_neg (by simpa using hpos)]
  trivial

theorem afterReply_told {reply : Reading} {status : LineStatus} {filled : LineBuffer}
    (h : buffer.afterReply reply = .inr (status, filled)) : status.Told [reply] := by
  rcases reply with errno | _ | ⟨byte, rest⟩
  · by_cases hi : errno = .eintr
    · subst hi
      cases h
    · have hlast : buffer.afterReply (.error errno) =
          .inr (if buffer.isEmpty then .failed errno else .line buffer.length, buffer) := by
        cases errno <;> first | rfl | exact absurd rfl hi
      obtain ⟨rfl, -⟩ : _ = status ∧ buffer = filled := by simpa using hlast.symm.trans h
      split
      · exact ⟨hi, rfl⟩
      · trivial
  · obtain ⟨rfl, -⟩ : buffer.ended = status ∧ buffer = filled := by simpa [afterReply] using h
    unfold LineBuffer.ended
    split
    · rfl
    · trivial
  · by_cases hb : byte = 10
    · obtain ⟨rfl, -⟩ : LineStatus.line buffer.length = status ∧ buffer = filled := by
        simpa [afterReply, hb] using h
      trivial
    · simp [afterReply, hb] at h

/-- There is more to read after a byte, or after a call that was interrupted. -/
theorem afterReply_inl {reply : Reading} {next : LineBuffer}
    (h : buffer.afterReply reply = .inl next) : reply.isByte ∨ next = buffer := by
  rcases reply with errno | _ | ⟨byte, rest⟩
  · cases errno <;> simp_all [afterReply]
  · simp [afterReply] at h
  · exact .inl rfl

theorem isEnd_of_afterReply {reply : Reading} {next : LineBuffer}
    (h : buffer.afterReply reply = .inl next) : reply.isEnd = false := by
  rcases reply with errno | _ | ⟨byte, rest⟩
  · rfl
  · simp [afterReply] at h
  · rfl

/-- A line that begins with nothing takes a byte to end. -/
theorem afterReply_byte {reply : Reading} {length : Nat} {filled : LineBuffer}
    (he : buffer.isEmpty) (h : buffer.afterReply reply = .inr (.line length, filled)) :
    reply.isByte := by
  rcases reply with errno | _ | ⟨byte, rest⟩
  · cases errno <;> simp [afterReply, he] at h
  · simp [afterReply, ended, he] at h
  · rfl

/-- What was read, and what it was read from. -/
structure Took (buffer : LineBuffer) (replies : List Reading) (result : LineStatus × LineBuffer)
    (phase : Phase) : Prop where
  phase : phase = .behind result.1 result.2
  told : result.1.Told replies
  byte : buffer.isEmpty → ∀ length, result.1 = .line length → ∃ reply ∈ replies, reply.isByte

variable {host : Host σ}

theorem readBytes_follows (limit bound : Nat) (buffer : LineBuffer) (state : σ) :
    (Action.traceRounds (fun buffer state => trace host limit (readByte .input buffer) state) bound
      buffer state).Follows (.ofRound (.inl buffer)) buffer.Took := by
  induction bound generalizing buffer state with
  | zero => exact .unfinished (.nothing _)
  | succ bound ih =>
    rw [Action.traceRounds]
    rcases Nat.lt_or_ge buffer.length maxLineLength with hroom | hfull
    · rw [trace_readByte host limit .input hroom, Run.bind_of_returned rfl]
      have hphase : Phase.ofRound (.inl buffer) = .reading buffer :=
        if_neg (Nat.not_le.2 hroom)
      have hone : Hears (.reading buffer) (heard .input
          [.asked state (.read .input 1) (host.answer (.read .input 1) state).1])
          (.ofRound (buffer.afterReply (host.answer (.read .input 1) state).1)) := by
        rw [heard_cons_read]
        exact .reply (.nothing _)
      rw [hphase]
      refine .after hone ?_
      simp only [heard_cons_read, heard_nil]
      rcases ha : buffer.afterReply (host.answer (.read .input 1) state).1 with next | result
      · refine (ih next _).mono fun replies result phase h => ?_
        refine ⟨h.phase, h.told.cons _, fun he length hline => ?_⟩
        rcases afterReply_inl ha with hbyte | rfl
        · exact ⟨_, List.mem_cons_self, hbyte⟩
        · obtain ⟨reply, hm, hbyte⟩ := h.byte he length hline
          exact ⟨reply, List.mem_cons_of_mem _ hm, hbyte⟩
      · refine .pure ⟨rfl, afterReply_told ha, fun he length hline => ?_⟩
        obtain ⟨status, filled⟩ := result
        subst hline
        exact ⟨_, List.mem_cons_self, afterReply_byte he ha⟩
    · rw [trace_readByte_full host limit .input hfull, Run.pure_bind]
      refine .pure ⟨if_pos hfull, ended_told hfull, fun he => ?_⟩
      have h0 : buffer.length = 0 := of_decide_eq_true he
      rw [h0] at hfull
      exact absurd hfull (by decide)

theorem read_follows (bound : Nat) (buffer : LineBuffer) (state : σ) :
    (trace host bound (buffer.read .input) state).Follows .start empty.Took := by
  rw [trace_read host bound .input, ← Phase.ofRound_empty]
  exact readBytes_follows bound bound empty state

end LineBuffer

namespace Shell

variable {host : Host σ} {bound : Nat}

/-- What a prompt came to. -/
inductive Prompted (shell : Shell) : List Reading → Bool × Shell → Phase → Prop
  | line {replies : List Reading} {after : Shell} : (∃ reply ∈ replies, reply.isByte) →
    shell.Unmoved after → Prompted shell replies (true, after) (.ofVerdict after.command.verdict)
  | endOfInput {replies : List Reading} {after : Shell} : replies.getLast? = some (.ok []) →
    after.running = false → after.lastStatus = shell.lastStatus →
      Prompted shell replies (false, after) (.over (.returned 0))
  | failed {replies : List Reading} {after : Shell} {errno : Errno} : errno ≠ .eintr →
    replies.getLast? = some (.error errno) → after.running = false → after.lastStatus = 1 →
      Prompted shell replies (false, after) (.over (.returned 1))

theorem getCommand_follows (shell : Shell) (state : σ) :
    (trace host bound shell.getCommand state).Follows .start shell.Prompted := by
  rw [getCommand, Action.trace_bind]
  refine (Run.Follows.chore_returned (.display _ _) (.display _ _)).bind ?_
  rintro _ _ last _ ⟨rfl, rfl, -⟩
  rw [Action.trace_bind]
  refine (LineBuffer.read_follows bound shell.line last).bind ?_
  rintro replies ⟨status, line⟩ last _ ⟨rfl, htold, hbyte⟩
  cases status with
  | line length =>
    simp only [Action.trace_bind]
    refine (Run.Follows.chore_returned (.offhand (parseLine_offhand _ _))
      (parseLine_ensures _ _)).bind ?_
    rintro _ after last _ ⟨rfl, rfl, rfl⟩
    exact .pure (.line (by simpa using hbyte rfl length rfl) ⟨rfl, rfl⟩)
  | endOfInput =>
    have hlast : replies.getLast? = some (.ok []) := htold
    exact .pure (.endOfInput (by simpa using hlast) rfl rfl)
  | failed errno =>
    rw [Action.trace_bind]
    refine (Run.Follows.chore_returned (.report _ _) (.call _)).bind ?_
    rintro _ _ last _ ⟨rfl, rfl, -⟩
    exact .pure (.failed htold.1 (by simpa using htold.2) rfl rfl)

/-- A shell and the phase that it is in between two rounds. -/
inductive Stands : Shell → Phase → Prop
  | running {shell : Shell} : shell.running → shell.lastStatus = 0 → Stands shell .start
  | stopped {shell : Shell} : shell.running = false →
    Stands shell (.over (.returned shell.lastStatus))

/-- What a command makes of a running shell is in its verdict. -/
theorem run_follows {shell : Shell} (hr : shell.running) (command : Command) (state : σ) :
    (trace host bound (Job.run shell command) state).Follows (.ofVerdict command.verdict)
      fun replies result phase => replies = [] ∧
        (shell.lastStatus = 0 → result.2.Stands phase) := by
  refine .chore (Job.run_chore shell command) ((Job.run_met hr command).mono fun ending h => ?_)
  generalize command.verdict = verdict at h ⊢
  cases h with
  | @goOn status after hu =>
    refine ⟨rfl, fun h0 => ?_⟩
    exact .running (hu.running.trans hr) (hu.lastStatus.trans h0)
  | @stop given status after hstop hlast =>
    refine ⟨rfl, fun h0 => ?_⟩
    rw [Phase.ofVerdict, ← h0, ← hlast]
    exact .stopped hstop
  | leave => rfl

theorem round_follows {shell : Shell} (hr : shell.running) (state : σ) :
    (trace host bound shell.round state).Follows .start fun replies after phase =>
      (after.running → ∃ reply ∈ replies, reply.isByte) ∧
        (shell.lastStatus = 0 → after.Stands phase) := by
  rw [round, Action.trace_bind]
  refine (Run.Follows.chore_returned (reap_chore shell) (reap_ensures shell)).bind ?_
  rintro _ reaped last _ ⟨rfl, rfl, hreaped⟩
  rw [Action.trace_bind]
  refine (getCommand_follows reaped last).bind ?_
  rintro replies ⟨ready, after⟩ last phase hp
  cases hp with
  | line hbyte hu =>
    have hafter : after.running := (hu.running.trans hreaped.running).trans hr
    have hlast := hu.lastStatus.trans hreaped.lastStatus
    simp only [if_true, Action.trace_bind]
    refine (run_follows hafter after.command last).bind ?_
    rintro _ result last phase ⟨rfl, hstands⟩
    exact .pure ⟨fun _ => by simpa using hbyte, fun h0 => hstands (hlast.trans h0)⟩
  | endOfInput _ hstop hlast =>
    refine .pure ⟨fun hgo => absurd hgo (ne_true_of_eq_false hstop), fun h0 => ?_⟩
    rw [← h0, ← hreaped.lastStatus, ← hlast]
    exact .stopped hstop
  | failed _ _ hstop hlast =>
    refine .pure ⟨fun hgo => absurd hgo (ne_true_of_eq_false hstop), fun h0 => ?_⟩
    rw [← hlast]
    exact .stopped hstop

theorem turns_follows (count : Nat) {shell : Shell} {phase : Phase} (h : shell.Stands phase)
    (state : σ) : (turns host bound count shell state).Follows phase fun _ after phase' =>
      phase' = .over (.returned after.lastStatus) := by
  induction count generalizing shell phase state with
  | zero => exact .unfinished (.nothing phase)
  | succ count ih =>
    rw [turns, Action.traceRounds]
    cases h with
    | running hr h0 =>
      rw [turn_running hr, Action.trace_bind, Run.bind_assoc]
      exact (round_follows hr state).bind fun _ after last phase h => ih (h.2 h0) last
    | stopped hr =>
      rw [turn_stopped hr]
      exact .pure rfl

/-- A session goes through the phases that its input leads it through. If it returns it is over, and
its status is as the phase has it. -/
theorem runLoop_follows {shell : Shell} {phase : Phase} (h : shell.Stands phase) (state : σ) :
    (trace host bound shell.runLoop state).Follows phase fun _ result phase' =>
      phase' = .over (.returned result.1) := by
  rw [trace_runLoop]
  refine (turns_follows bound h state).bind fun _ after last phase hover => ?_
  refine (Run.Follows.chore_returned (takeLeave_chore after) (takeLeave_ensures after)).bind ?_
  rintro _ _ last _ ⟨rfl, rfl, rfl⟩
  exact .pure hover

/-! ## No rest between two reads -/

theorem readByte_ends (host : Host σ) (buffer : LineBuffer) (state : σ) :
    Ends host (buffer.readByte .input) state := by
  refine ⟨0, ?_⟩
  rcases Nat.lt_or_ge buffer.length maxLineLength with hroom | hfull
  · rw [LineBuffer.trace_readByte host 0 .input hroom]
    rfl
  · rw [LineBuffer.trace_readByte_full host 0 .input hfull]
    rfl

/-- The reads that find more than the end of the input are marked, and a chore that does not end
goes on to make marked moves. -/
structure Marks (host : Host σ) (marked : Move σ → Bool) : Prop where
  read : ∀ (move : Move σ) (reply : Reading), move.heard? .input = some reply →
    reply.isEnd = false → marked move
  chore : ∀ {α : Type} {action : Action α}, Action.Chore action → ∀ state,
    Advances host marked action state

section
variable {marked : Move σ → Bool}

theorem Marks.pos {moves : List (Move σ)} {reply : Reading} (h : Marks host marked)
    (hm : reply ∈ heard .input moves) (he : reply.isEnd = false) : 0 < moves.countP marked := by
  obtain ⟨move, hmove, hreply⟩ := List.mem_filterMap.1 hm
  exact List.countP_pos_iff.2 ⟨move, hmove, h.read move reply hreply he⟩

theorem read_advances (h : Marks host marked) (buffer : LineBuffer) (state : σ) :
    Advances host marked (buffer.read .input) state := by
  refine .iterate (fun _ => 0) (fun buffer state => (readByte_ends host buffer state).advances)
    (fun buffer state bound next after hr => .inl ?_) _ state
  rcases Nat.lt_or_ge buffer.length maxLineLength with hroom | hfull
  · rw [LineBuffer.trace_readByte host bound .input hroom] at hr ⊢
    have hmore : buffer.afterReply (host.answer (.read .input 1) state).1 = .inl next := by
      simp only [Option.some.injEq, Prod.mk.injEq, Ending.returned.injEq] at hr
      exact hr.1
    refine h.pos ?_ (LineBuffer.isEnd_of_afterReply hmore)
    rw [heard_cons_read]
    exact List.mem_cons_self
  · rw [LineBuffer.trace_readByte_full host bound .input hfull] at hr
    simp [Run.pure] at hr

theorem getCommand_advances (h : Marks host marked) (shell : Shell) (state : σ) :
    Advances host marked shell.getCommand state := by
  refine (h.chore (.display _ _) state).bind fun _ _ after _ => ?_
  refine (read_advances h shell.line after).bind fun _ result after _ => ?_
  obtain ⟨_ | _ | errno, line⟩ := result
  · exact h.chore ((Action.Chore.offhand (parseLine_offhand _ _)).bind fun _ => .pure _) after
  · exact h.chore (.pure _) after
  · exact h.chore ((Action.Chore.report _ _).bind fun _ => .pure _) after

theorem round_advances (h : Marks host marked) (shell : Shell) (state : σ) :
    Advances host marked shell.round state := by
  refine (h.chore (reap_chore shell) state).bind fun _ reaped after _ => ?_
  refine (getCommand_advances h reaped after).bind fun _ result after _ => ?_
  obtain ⟨_ | _, after⟩ := result
  · exact h.chore (.pure _) _
  · exact h.chore ((Job.run_chore _ _).bind fun _ => .pure _) _

/-- A session ends, or goes on to make marked moves. A round that is not the last one has read a
byte. -/
theorem runLoop_advances (h : Marks host marked) (shell : Shell) (state : σ) :
    Advances host marked shell.runLoop state := by
  rw [runLoop_eq_takeLeave]
  refine (Advances.iterate (fun shell => shell.running.toNat) (fun shell state => ?_)
    (fun shell state bound next after hr => ?_) shell state).bind fun _ after last _ => ?_
  · by_cases hr : shell.running
    · rw [turn_running hr]
      exact (round_advances h shell state).bind fun _ next after _ => h.chore (.pure _) after
    · rw [turn_stopped (by simpa using hr)]
      exact h.chore (.pure _) state
  · by_cases hgo : shell.running
    · rw [turn_running hgo, Action.trace_bind] at hr ⊢
      obtain ⟨between, mid, hround, hpure⟩ := Run.bind_returned hr
      obtain ⟨rfl, -⟩ : between = next ∧ mid = after := by simpa [Run.pure] using hpure
      by_cases hnext : between.running
      · obtain ⟨_, hbyte, -⟩ := (round_follows hgo state).of_returned hround
        obtain ⟨reply, hm, hb⟩ := hbyte hnext
        refine .inl (h.pos ?_ (Reading.isEnd_of_isByte hb))
        rw [Run.bind_of_returned hround, Run.after_moves, heard_append]
        exact List.mem_append_left _ hm
      · exact .inr (by simp [hgo, hnext])
    · rw [turn_stopped (by simpa using hgo)] at hr
      simp [Run.pure] at hr
  · exact h.chore ((takeLeave_chore after).bind fun _ => .pure _) last

end

/-- A session ends, or reads on for ever. -/
theorem runLoop_listens (hs : host.Settles) (shell : Shell) (state : σ) :
    Listens host .input shell.runLoop state :=
  Action.listens_iff.2
    (runLoop_advances ⟨fun _ _ hr _ => Option.isSome_of_mem hr,
      fun hc state => (hc.ends hs state).advances⟩ shell state)

end Shell

end TinyShell
