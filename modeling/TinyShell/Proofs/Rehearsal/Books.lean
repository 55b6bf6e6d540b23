import TinyShell.Proofs.Rehearsal.Child
import TinyShell.Proofs.Shell.Rightful
import TinyShell.Proofs.Shell.Still

/-!
# The books of a recorder

`Recorder.Attends`: a recorder was asked nothing that it has no answer for. It still had each child
that was waited for or looked at, it has started only children of the shell, and it was told of no
wait that failed. `Recorder.Books` is what is then in its books, by the moves alone, and
`Recorder.Attends.kept` who is kept in them: the children that are out. Each wait and each look was
answered with the status that the child ended with (`Recorder.Attends.answered`).

Whatever it is asked, a recorder gives its children numbers in a row (`Action.Calls.numbered`).
-/

namespace TinyShell

open Text (Bytes)
open TinyShell.Action (Calls Offhand trace)

variable {σ α β : Type} {bound : Nat} {recorder start mid last : Recorder}
  {first second moves : List (Move Recorder)} {pid : Pid} {request : Request}

/-! ## Steps -/

namespace Recorder

/-- The recorder can do what is asked, and is not told of a wait that failed. -/
def Serves (recorder : Recorder) : Request → Prop
  | .wait pid | .tryWait pid => pid ∈ recorder.kept
  | .report level message => NoWaitFailure level message
  | _ => True

/-- These moves took the recorder from one state to the other, and it served all of them. -/
inductive Attends (bound : Nat) : Recorder → List (Move Recorder) → Recorder → Prop
  | rest {recorder : Recorder} : Attends bound recorder [] recorder
  | asked {recorder last : Recorder} {request : Request} {moves : List (Move Recorder)} :
    recorder.Serves request → Attends bound (answer request recorder).2 moves last →
      Attends bound recorder (.asked recorder request (answer request recorder).1 :: moves) last
  | refused {recorder next last : Recorder} {errno : Errno} {moves : List (Move Recorder)} :
    fork recorder = (.error errno, next) → Attends bound next moves last →
      Attends bound recorder (.forked recorder (.error errno) [] :: moves) last
  /-- A child of the shell is started, and comes to its end. -/
  | forked {recorder born gone last : Recorder} {pid : Pid} {body : Action Status}
    {child moves : List (Move Recorder)} {ending : Ending Status} :
    fork recorder = (.ok pid, born) → Child.Body body →
      trace host bound body born = ⟨child, some (ending, gone)⟩ →
      Attends bound (gone.finish pid ending.status) moves last →
      Attends bound recorder (.forked recorder (.ok pid) child :: moves) last

theorem Attends.append (h : Attends bound start first mid) (h' : Attends bound mid second last) :
    Attends bound start (first ++ second) last := by
  induction h with
  | rest => exact h'
  | asked hs _ ih => exact .asked hs (ih h')
  | refused hf _ ih => exact .refused hf (ih h')
  | forked hf hb hc _ ih => exact .forked hf hb hc (ih h')

theorem Attends.split (h : Attends bound start (first ++ second) last) :
    ∃ mid, Attends bound start first mid ∧ Attends bound mid second last := by
  induction first generalizing start with
  | nil => exact ⟨start, .rest, h⟩
  | cons move rest ih =>
    cases h with
    | asked hs h =>
      obtain ⟨mid, hr, hl⟩ := ih h
      exact ⟨mid, .asked hs hr, hl⟩
    | refused hf h =>
      obtain ⟨mid, hr, hl⟩ := ih h
      exact ⟨mid, .refused hf hr, hl⟩
    | forked hf hb hc h =>
      obtain ⟨mid, hr, hl⟩ := ih h
      exact ⟨mid, .forked hf hb hc hr, hl⟩

theorem Attends.serves (h : Attends bound start moves last) {reply : request.Reply}
    (hm : .asked recorder request reply ∈ moves) : recorder.Serves request := by
  induction h with
  | rest => cases hm
  | asked hs _ ih =>
    rcases List.mem_cons.1 hm with he | hm
    · cases he
      exact hs
    · exact ih hm
  | refused _ _ ih | forked _ _ _ _ ih => exact ih ((List.mem_cons.1 hm).resolve_left (by simp))

/-! ## The children that are kept -/

theorem mem_kept : pid ∈ recorder.kept ↔ ∃ status, recorder.ended.lookup pid = some status := by
  rw [kept]
  induction recorder.ended with
  | nil => simp
  | cons entry rest ih =>
    rw [List.map_cons, List.mem_cons, ih, lookup_cons_ite]
    by_cases h : pid = entry.1 <;> simp [h]

theorem collect_kept (recorder : Recorder) (pid : Pid) :
    (recorder.collect pid).2.kept = recorder.kept.filter (· ≠ pid) := by
  unfold collect
  rcases hl : recorder.ended.lookup pid with _ | status
  · have hnot : pid ∉ recorder.kept := fun hm => by
      obtain ⟨status, hs⟩ := mem_kept.1 hm
      simp [hl] at hs
    refine (List.filter_eq_self.2 fun other ho => ?_).symm
    have hne : other ≠ pid := fun he => hnot (he ▸ ho)
    simpa using hne
  · simp only [kept, List.filter_map]
    rfl

theorem collect_ended {entry : Pid × Status}
    (h : entry ∈ (recorder.collect pid).2.ended) : entry ∈ recorder.ended := by
  unfold collect at h
  split at h
  · exact (List.mem_filter.1 h).1
  · exact h

/-- Who is kept after a call are those who are out after it. -/
theorem answer_kept (request : Request) (recorder : Recorder) :
    (answer request recorder).2.kept = outAfter recorder.kept
      (dealings [.asked recorder request (answer request recorder).1]) := by
  cases request with
  | wait pid =>
    have hkept : (answer (.wait pid) recorder).2.kept = recorder.kept.filter (· ≠ pid) :=
      collect_kept (recorder.addEvent (.asked (.wait pid))) pid
    rw [hkept]
    refine List.filter_congr fun other _ => ?_
    simp [Act.settles, eq_comm]
  | tryWait pid =>
    have hkept : (answer (.tryWait pid) recorder).2.kept = recorder.kept.filter (· ≠ pid) :=
      collect_kept recorder pid
    have hover : stillRuns (answer (.tryWait pid) recorder).1 = false := by
      simp only [answer, collect]
      split <;> rfl
    rw [hkept]
    refine List.filter_congr fun other _ => ?_
    simp [Act.settles, Act.concludes, hover, eq_comm]
  | _ =>
    exact congrArg (List.map Prod.fst) (answer_ended rfl recorder)

/-- The next child gets the next number. -/
theorem fork_ok {born : Recorder} (h : fork recorder = (.ok pid, born)) :
    pid = recorder.lastPid + 1 ∧
      born = { recorder.addEvent (.forked pid) with lastPid := pid } := by
  unfold fork at h
  split at h
  · cases h
  · obtain ⟨hpid, rfl⟩ := Prod.mk.inj h
    obtain rfl := Except.ok.inj hpid
    exact ⟨rfl, rfl⟩

theorem fork_error {errno : Errno} {next : Recorder} (h : fork recorder = (.error errno, next)) :
    next = recorder := by
  unfold fork at h
  split at h
  · exact (Prod.mk.inj h).2.symm
  · cases h

/-- A child of the shell comes to its end: its parent finds what it left, and its status. -/
theorem finish_of_forked (h : recorder.replaced = false) {born gone : Recorder}
    {body : Action Status} {child : List (Move Recorder)} {ending : Ending Status}
    (hf : fork recorder = (.ok pid, born)) (hb : Child.Body body)
    (hc : trace host bound body born = ⟨child, some (ending, gone)⟩) :
    born.Undisturbed child gone ∧ gone.finish pid ending.status = { gone with
      replaced := false
      ended := (pid, ending.status) :: recorder.ended.filter (·.1 ≠ pid) } := by
  obtain ⟨-, hborn⟩ := fork_ok hf
  have hawake : born.replaced = false := by rw [hborn]; exact h
  obtain ⟨child', ending', gone', hrun, hu, hgone⟩ := hb.prepares.ends hb.offhand bound hawake
  obtain ⟨rfl, rfl, rfl⟩ : child = child' ∧ ending = ending' ∧ gone = gone' := by
    simpa [hc] using hrun
  have hended : gone.ended = recorder.ended := by rw [hu.ended, hborn]; rfl
  refine ⟨hu, ?_⟩
  by_cases hr : gone.replaced
  · simp [finish, hr, hgone hr, Ending.status, hended]
  · simp [finish, hr, hended]

/-! ## The books -/

end Recorder

/-- What is written to the output. -/
def Move.written : Move σ → Bytes
  | .asked _ (.write fd bytes) _ => if fd = .output then bytes else []
  | _ => []

/-- All that is written to the output. -/
def written (moves : List (Move σ)) : Bytes := moves.flatMap Move.written

namespace Recorder

/-- What a process has added to the books of a recorder. -/
structure Books (bound : Nat) (start : Recorder) (moves : List (Move Recorder)) (last : Recorder) :
    Prop where
  before : ∀ move ∈ moves, move.before.replaced = false
  awake : last.replaced = false
  output : last.record.output = start.record.output ++ written moves
  content : start.Content → last.Content
  descriptors : Consecutive start.nextDescriptor (descriptorsOf moves) last.nextDescriptor
  /-- A child is kept with the status that it ended with. -/
  ended : ∀ entry ∈ last.ended, entry ∈ start.ended ∨ ∃ fork ∈ (Ledger.of moves).forks,
    fork.result = .ok entry.1 ∧ fork.Left host bound entry.2

namespace Books

theorem refl (h : recorder.replaced = false) : Books bound recorder [] recorder where
  before := by simp
  awake := h
  output := (List.append_nil _).symm
  content := id
  descriptors := descriptorsOf_nil ▸ rfl
  ended := fun _ => .inl

theorem trans (h : Books bound start first mid) (h' : Books bound mid second last) :
    Books bound start (first ++ second) last where
  before := List.forall_mem_append.2 ⟨h.before, h'.before⟩
  awake := h'.awake
  output := by rw [h'.output, h.output, List.append_assoc, written, written, written,
    List.flatMap_append]
  content := h'.content ∘ h.content
  descriptors := by
    rw [descriptorsOf_append]
    exact h.descriptors.append h'.descriptors
  ended := by
    intro entry he
    rw [Ledger.of_append]
    rcases h'.ended entry he with he | ⟨fork, hm, hfork⟩
    · rcases h.ended entry he with he | ⟨fork, hm, hfork⟩
      · exact .inl he
      · exact .inr ⟨fork, List.mem_append_left _ hm, hfork⟩
    · exact .inr ⟨fork, List.mem_append_right _ hm, hfork⟩

theorem asked (h : recorder.replaced = false) (hs : recorder.Serves request) :
    Books bound recorder [.asked recorder request (answer request recorder).1]
      (answer request recorder).2 := by
  obtain ⟨_, _, _, _, hframe⟩ := answer_frame request recorder
  refine ⟨List.forall_mem_singleton.2 h, by rw [hframe]; exact h, ?_, fun hc => ?_, ?_, ?_⟩
  · cases request with
    | write fd bytes =>
      by_cases hfd : fd = .output <;>
        simp [answer, written, Move.written, hfd, h, Record.addOutput]
    | _ => exact (answer_output rfl recorder).trans (List.append_nil _).symm
  · refine answer_content hc ?_
    rintro level message rfl
    exact hs
  · rw [descriptorsOf_cons, descriptorsOf_nil, List.append_nil]
    exact answer_descriptors request recorder
  · intro entry he
    refine .inl ?_
    cases request with
    | wait pid => exact @collect_ended (recorder.addEvent (.asked (.wait pid))) pid entry he
    | tryWait pid => exact collect_ended he
    | _ => rwa [answer_ended rfl recorder] at he

theorem refused {errno : Errno} (h : recorder.replaced = false) :
    Books bound recorder [.forked recorder (.error errno) []] recorder where
  before := List.forall_mem_singleton.2 h
  awake := h
  output := (List.append_nil _).symm
  content := id
  descriptors := by
    rw [descriptorsOf_cons, Move.descriptors, descriptorsOf_nil]
    rfl
  ended := fun _ => .inl

theorem forked (h : recorder.replaced = false) {born gone : Recorder} {body : Action Status}
    {child : List (Move Recorder)} {ending : Ending Status}
    (hf : fork recorder = (.ok pid, born)) (hb : Child.Body body)
    (hc : trace host bound body born = ⟨child, some (ending, gone)⟩) :
    Books bound recorder [.forked recorder (.ok pid) child] (gone.finish pid ending.status) := by
  obtain ⟨hu, hlast⟩ := finish_of_forked h hf hb hc
  obtain ⟨-, hborn⟩ := fork_ok hf
  rw [hlast]
  refine ⟨List.forall_mem_singleton.2 h, rfl, ?_, fun hc => ?_, ?_, ?_⟩
  · simp [hu.output, hborn, written, Move.written, addEvent, Record.addEvent]
  · refine hu.content ?_
    rw [hborn]
    exact hc
  · rw [descriptorsOf_cons, Move.descriptors, descriptorsOf_nil, List.append_nil]
    have hfds := hu.descriptors
    rw [hborn] at hfds
    exact hfds
  · intro entry he
    rcases List.mem_cons.1 he with rfl | he
    · refine .inr ⟨⟨recorder, .ok pid, child⟩, List.mem_singleton.2 rfl, rfl, ?_⟩
      have hrun : trace host bound body (fork recorder).2 = ⟨child, some (ending, gone)⟩ := by
        rw [hf, hc]
      exact ⟨body, ending, gone, hb, hrun, rfl⟩
    · exact .inl (List.mem_filter.1 he).1

end Books

theorem Attends.books (h : Attends bound start moves last) (hawake : start.replaced = false) :
    Books bound start moves last := by
  induction h with
  | rest => exact .refl hawake
  | @asked recorder last request moves hs _ ih =>
    have hstep := @Books.asked bound recorder request hawake hs
    exact hstep.trans (ih hstep.awake)
  | refused hf _ ih =>
    obtain rfl := fork_error hf
    exact (Books.refused hawake).trans (ih hawake)
  | forked hf hb hc _ ih =>
    have hstep := Books.forked hawake hf hb hc
    exact hstep.trans (ih hstep.awake)

/-- Who is kept are those who are out. -/
theorem Attends.kept (h : Attends bound start moves last) (hawake : start.replaced = false)
    (hf : Fresh start.kept (dealings moves)) :
    last.kept = outAfter start.kept (dealings moves) := by
  induction h with
  | rest => rfl
  | @asked recorder last request moves hs _ ih =>
    have hall : dealings (.asked recorder request (answer request recorder).1 :: moves) =
        dealings [.asked recorder request (answer request recorder).1] ++ dealings moves :=
      dealings_append [_] moves
    rw [hall] at hf ⊢
    have hstep := @Books.asked bound recorder request hawake hs
    rw [outAfter_append, ← answer_kept]
    exact ih hstep.awake (answer_kept request recorder ▸ (fresh_append.1 hf).2)
  | @refused recorder next last errno moves hf' _ ih =>
    obtain rfl := fork_error hf'
    have hout : Act.refused.out next.kept = next.kept := List.filter_eq_self.2 fun _ _ => rfl
    have hrest : Fresh (Act.refused.out next.kept) (dealings moves) := hf.2
    have hlast := ih hawake (hout ▸ hrest)
    rw [← hout] at hlast
    exact hlast
  | @forked recorder born gone last pid body child moves ending hf' hb hc _ ih =>
    obtain ⟨-, hend⟩ := finish_of_forked hawake hf' hb hc
    have hnew : pid ∉ recorder.kept := hf.1 pid rfl
    have hkept : (gone.finish pid ending.status).kept = (Act.started pid).out recorder.kept := by
      have hothers : recorder.ended.filter (·.1 ≠ pid) = recorder.ended := by
        refine List.filter_eq_self.2 fun entry he => ?_
        have hne : entry.1 ≠ pid := fun h => hnew (h ▸ List.mem_map_of_mem he)
        simpa using hne
      have hout : recorder.kept.filter (fun other => !(Act.started pid).settles other) =
          recorder.kept := List.filter_eq_self.2 fun _ _ => rfl
      rw [hend, hothers, Act.out, hout]
      rfl
    have hrest : Fresh ((Act.started pid).out recorder.kept) (dealings moves) := hf.2
    have hlast := ih (by rw [hend]) (hkept ▸ hrest)
    rw [hkept] at hlast
    exact hlast

end Recorder

/-! ## The answers -/

/-- The move is a wait for this child, or a look at it. -/
def Move.AsksFor (pid : Pid) : Move σ → Prop
  | .asked _ (.wait other) _ | .asked _ (.tryWait other) _ => other = pid
  | _ => False

/-- The move was answered with the status of this child. -/
def Move.Tells (pid : Pid) (status : Status) : Move σ → Prop
  | .asked _ (.wait other) reply => other = pid ∧ reply = .ok status
  | .asked _ (.tryWait other) look => other = pid ∧ look = .ok (some status)
  | _ => False

namespace Recorder

theorem collect_of_mem (h : pid ∈ recorder.kept) :
    ∃ status, (recorder.collect pid).1 = .ok status ∧ (pid, status) ∈ recorder.ended := by
  obtain ⟨status, hl⟩ := mem_kept.1 h
  refine ⟨status, by simp [collect, hl], ?_⟩
  obtain ⟨before, after, he, -⟩ := List.lookup_eq_some_iff.1 hl
  simp [he]

/-- Who is asked for is found, with the status that was kept. -/
theorem Attends.tells {move : Move Recorder} (h : Attends bound start (move :: moves) last)
    (ha : move.AsksFor pid) : ∃ status, move.Tells pid status ∧ (pid, status) ∈ start.ended := by
  cases h with
  | @asked recorder last request moves hs =>
    cases request with
    | wait other =>
      obtain rfl : other = pid := ha
      obtain ⟨status, hr, he⟩ := @collect_of_mem (start.addEvent (.asked (.wait other))) other hs
      exact ⟨status, ⟨rfl, hr⟩, he⟩
    | tryWait other =>
      obtain rfl : other = pid := ha
      obtain ⟨status, hr, he⟩ := collect_of_mem hs
      refine ⟨status, ⟨rfl, ?_⟩, he⟩
      simp [answer, hr, Except.map]
    | _ => cases ha
  | refused | forked => cases ha

/-- Each wait and each look is answered with the status that the child ended with. -/
theorem Attends.answered {move : Move Recorder}
    (h : Attends bound start (first ++ move :: second) last) (hawake : start.replaced = false)
    (hnone : start.ended = []) (ha : move.AsksFor pid) :
    ∃ fork ∈ (Ledger.of first).forks, ∃ status, fork.result = .ok pid ∧
      fork.Left host bound status ∧ move.Tells pid status := by
  obtain ⟨mid, hfirst, hrest⟩ := h.split
  obtain ⟨status, ht, he⟩ := hrest.tells ha
  rcases (hfirst.books hawake).ended _ he with hs | ⟨fork, hm, hr, hl⟩
  · simp [hnone] at hs
  · exact ⟨fork, hm, status, hr, hl, ht⟩

/-- The state that each call is made in keeps the children that are out then. -/
theorem Attends.kept_before {move : Move Recorder}
    (h : Attends bound start (first ++ move :: second) last) (hawake : start.replaced = false)
    (hf : Fresh start.kept (dealings (first ++ move :: second))) :
    move.before.kept = outAfter start.kept (dealings first) := by
  obtain ⟨mid, hfirst, hrest⟩ := h.split
  rw [dealings_append] at hf
  have hbefore : move.before = mid := by cases hrest <;> rfl
  rw [hbefore]
  exact hfirst.kept hawake (fresh_append.1 hf).1

end Recorder

/-! ## The numbers of children -/

/-- The children that a process started. -/
abbrev childrenOf (moves : List (Move σ)) : List Pid := (dealings moves).filterMap Act.started?

theorem childrenOf_append (first second : List (Move σ)) :
    childrenOf (first ++ second) = childrenOf first ++ childrenOf second := by
  rw [childrenOf, dealings_append, List.filterMap_append]

/-- The children of a run have numbers in a row, from the one behind the last that was given out. -/
def Run.Numbered (start : Recorder) (run : Run Recorder α) : Prop :=
  ∃ next, Consecutive (start.lastPid + 1) (childrenOf run.moves) next ∧
    ∀ ending last, run.result = some (ending, last) → next = last.lastPid + 1

namespace Run.Numbered

variable {run : Run Recorder α}

theorem ended {ending : Ending α} (h : last.lastPid = start.lastPid) :
    Run.Numbered start ⟨[], some (ending, last)⟩ := by
  refine ⟨start.lastPid + 1, rfl, fun ending' last' hr => ?_⟩
  obtain ⟨-, rfl⟩ : ending = ending' ∧ last = last' := by simpa using hr
  rw [h]

theorem after {earlier : List (Move Recorder)} (h : run.Numbered mid)
    (he : Consecutive (start.lastPid + 1) (childrenOf earlier) (mid.lastPid + 1)) :
    (run.after earlier).Numbered start := by
  obtain ⟨next, hn, hlast⟩ := h
  refine ⟨next, ?_, hlast⟩
  rw [Run.after_moves, childrenOf_append]
  exact he.append hn

theorem bind {next : α → Recorder → Run Recorder β} (h : run.Numbered start)
    (hn : ∀ value last, (next value last).Numbered last) : (run.bind next).Numbered start := by
  obtain ⟨moves, _ | ⟨value | status, last⟩⟩ := run <;> obtain ⟨number, hc, hlast⟩ := h
  · exact ⟨number, hc, nofun⟩
  · exact (hn value last).after (hlast _ last rfl ▸ hc)
  · refine ⟨number, hc, fun ending last' hr => ?_⟩
    obtain ⟨-, rfl⟩ : Ending.exited status = ending ∧ last = last' := by simpa [Run.bind] using hr
    exact hlast _ last rfl

theorem rules : Rules fun start run => run.Numbered start where
  cut _ := ⟨_, rfl, nofun⟩
  pure _ _ := .ended rfl
  bind := .bind

/-- A move that is no start, and gives out no number. -/
theorem silent {move : Move Recorder} (h : run.Numbered mid) (hm : childrenOf [move] = [])
    (hp : mid.lastPid = start.lastPid) : (run.after [move]).Numbered start := by
  refine h.after ?_
  rw [hm, hp]
  rfl

end Run.Numbered

theorem Recorder.answer_lastPid (request : Request) (recorder : Recorder) :
    (host.answer request recorder).2.lastPid = recorder.lastPid := by
  obtain ⟨_, _, _, _, hframe⟩ := answer_frame request recorder
  change (answer request recorder).2.lastPid = _
  rw [hframe]

theorem Recorder.exec_lastPid (program : String) (argv : List String) (recorder : Recorder) :
    (host.exec program argv recorder).2.lastPid = recorder.lastPid := by
  simp only [host, exec]
  split <;> rfl

namespace Action

/-- What is done offhand gives out no number. -/
theorem Offhand.lastPid {action : Action α} (h : Offhand action) {ending : Ending α}
    (hr : (trace Recorder.host bound action start).result = some (ending, last)) :
    last.lastPid = start.lastPid := by
  induction h generalizing start with
  | done | exit =>
    obtain ⟨-, rfl⟩ : _ ∧ start = last := by simpa [trace, Run.pure] using hr
    rfl
  | @ask request next _ _ ih =>
    rw [trace_ask] at hr
    exact (ih _ hr).trans (Recorder.answer_lastPid request start)
  | @exec program argv next _ ih =>
    have hafter := Recorder.exec_lastPid program argv start
    rcases he : Recorder.host.exec program argv start with ⟨errno | status, mid⟩ <;>
      rw [he] at hafter
    · rw [trace_exec_error he] at hr
      exact (ih errno hr).trans hafter
    · rw [trace_exec_ok he] at hr
      obtain ⟨-, rfl⟩ : _ ∧ mid = last := by simpa using hr
      exact hafter
  | note _ ih => exact ih hr

/-- A process whose children start no children of their own. -/
theorem Calls.numbered {requests : Request → Prop} {action : Action α}
    (h : Calls requests Offhand action) (bound : Nat) (start : Recorder) :
    (trace Recorder.host bound action start).Numbered start := by
  induction h generalizing start with
  | done | exit => exact .ended rfl
  | @ask _ request next _ _ ih =>
    rw [trace_ask]
    exact (ih _ _).silent (by cases request <;> rfl) (Recorder.answer_lastPid request start)
  | @exec _ program argv next _ ih =>
    have hafter := Recorder.exec_lastPid program argv start
    rcases he : Recorder.host.exec program argv start with ⟨errno | status, mid⟩ <;>
      rw [he] at hafter
    · rw [trace_exec_error he]
      exact (ih errno mid).silent rfl hafter
    · rw [trace_exec_ok he]
      exact Run.Numbered.silent (.ended rfl) rfl hafter
  | @spawn _ child next hc _ ih =>
    rcases hf : Recorder.fork start with ⟨errno | pid, born⟩
    · obtain rfl := Recorder.fork_error hf
      rw [trace_spawn_error hf]
      exact (ih _ _).silent rfl rfl
    · obtain ⟨hpid, hborn⟩ := Recorder.fork_ok hf
      obtain ⟨⟨ending, gone⟩, hr⟩ :=
        Option.isSome_iff_exists.1 (hc.loopless.isSome Recorder.host bound born)
      have hgone : (gone.finish pid ending.status).lastPid = pid :=
        (hc.lastPid hr).trans (by rw [hborn])
      have hone : Consecutive (start.lastPid + 1) [pid]
          ((gone.finish pid ending.status).lastPid + 1) := ⟨hpid, by rw [hgone, hpid]; rfl⟩
      rw [trace_spawn_ok hf hr]
      exact (ih _ _).after hone
  | note _ ih => exact ih start
  | loop _ _ ihb ih => exact Run.Numbered.rules.loop ihb ih _ start

end Action

end TinyShell
