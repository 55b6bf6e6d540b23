import TinyShell.Proofs.Shell.Listening
import TinyShell.Rehearsal.Recorder

/-!
# A session ends as its input says

`Shell.runLoop_input_alone`: two systems that answer the reads of a session alike see it end alike,
behind the same input, whatever else they answer. How it ends is in the phases that the input leads
through, and it does end if the input does.

On the way, the course of the shell is changed by three things only: a `quit`, the end of the input
and a read that failed (`Shell.Steered`). Once the shell is to stop it stays so, and it takes its
leave without another command or another read.
-/

namespace TinyShell

open Text (Bytes)
open TinyShell.Action (trace Calls Chore Ensures Offhand Sips)

variable {σ τ α β : Type}

/-- The ending with another value. -/
def Ending.map (f : α → β) : Ending α → Ending β
  | .returned value => .returned (f value)
  | .exited status => .exited status

/-! ## The phases of an input -/

/-- The first replies to reads that are answered so. -/
def firsts (readings : Nat → Reading) (count : Nat) : List Reading :=
  (List.range count).map readings

theorem firsts_succ (readings : Nat → Reading) (count : Nat) :
    firsts readings (count + 1) = firsts readings count ++ [readings count] := by
  rw [firsts, List.range_succ, List.map_append]
  rfl

theorem getElem?_firsts {readings : Nat → Reading} {count i : Nat} {reply : Reading}
    (h : (firsts readings count)[i]? = some reply) : reply = readings i := by
  rw [firsts, List.getElem?_map] at h
  obtain ⟨j, hj, rfl⟩ := Option.map_eq_some_iff.1 h
  obtain ⟨hlt, rfl⟩ := List.getElem?_eq_some_iff.1 hj
  rw [List.getElem_range]

theorem eq_firsts {readings : Nat → Reading} {replies : List Reading}
    (h : ∀ i reply, replies[i]? = some reply → reply = readings i) :
    replies = firsts readings replies.length := by
  refine List.ext_getElem (by simp [firsts]) fun i hi hi' => ?_
  rw [h i _ (List.getElem?_eq_getElem hi)]
  exact (getElem?_firsts (List.getElem?_eq_getElem hi')).symm

namespace Phase

theorem Hears.snoc {phase : Phase} {replies : List Reading} {buffer : LineBuffer}
    (h : Hears phase replies (.reading buffer)) (reply : Reading) :
    Hears phase (replies ++ [reply]) (hear (.reading buffer) reply) :=
  h.append (.reply (.nothing _))

/-- A session hears all of what comes, unless it is over before. -/
theorem hears_firsts (readings : Nat → Reading) (count : Nat) :
    (∃ buffer, Hears .start (firsts readings count) (.reading buffer)) ∨
      ∃ less ending, Hears .start (firsts readings less) (.over ending) := by
  induction count with
  | zero => exact .inl ⟨.empty, .nothing _⟩
  | succ count ih =>
    obtain ⟨buffer, hb⟩ | hover := ih
    · have hnext := hb.snoc (readings count)
      rw [← firsts_succ] at hnext
      rcases hnow : hear (.reading buffer) (readings count) with next | ending <;>
        rw [hnow] at hnext
      · exact .inl ⟨next, hnext⟩
      · exact .inr ⟨count + 1, ending, hnext⟩
    · exact .inr hover

/-- At the end of the input a line is over, and behind a line that lets the session go on, so is the
session. -/
theorem hear_end (buffer : LineBuffer) :
    hear (.reading buffer) (.ok []) = .start ∨
      ∃ ending, hear (.reading buffer) (.ok []) = .over ending := by
  have hhear : hear (.reading buffer) (.ok []) = behind buffer.ended buffer := rfl
  rw [hhear, LineBuffer.ended]
  split
  · exact .inr ⟨_, rfl⟩
  · rw [behind]
    rcases (Command.ofLine buffer.text).verdict with _ | given | status
    · exact .inl rfl
    · exact .inr ⟨_, rfl⟩
    · exact .inr ⟨_, rfl⟩

/-- An input that ends leads to the end of the session. -/
theorem hears_over {readings : Nat → Reading} {count : Nat}
    (h : ∀ i, count ≤ i → readings i = .ok []) :
    ∃ least ending, Hears .start (firsts readings least) (.over ending) := by
  obtain ⟨buffer, hb⟩ | hover := hears_firsts readings count
  · have hnext := hb.snoc (readings count)
    rw [← firsts_succ, h count (Nat.le_refl _)] at hnext
    rcases hear_end buffer with hstart | ⟨ending, hover⟩
    · rw [hstart] at hnext
      have hlast := hnext.snoc (readings (count + 1))
      rw [← firsts_succ, h (count + 1) (by omega)] at hlast
      exact ⟨count + 2, .returned 0, hlast⟩
    · exact ⟨count + 1, ending, hover ▸ hnext⟩
  · exact hover

end Phase

namespace Shell

/-! ## The end of a session -/

/-- The reads that a new shell makes in a session are answered so, one after the other. -/
def Answered (host : Host σ) (state : σ) (readings : Nat → Reading) : Prop :=
  ∀ bound i reply, (heard .input (trace host bound (runLoop {}) state).moves)[i]? = some reply →
    reply = readings i

/-- The session of a new shell ends so, behind these replies to its reads. -/
def Concludes (host : Host σ) (state : σ) (ending : Ending Status) (replies : List Reading) :
    Prop :=
  ∃ bound moves result last,
    trace host bound (runLoop {}) state = ⟨moves, some (result, last)⟩ ∧
      result.map Prod.fst = ending ∧ heard .input moves = replies

/-- A session ends where the phases of its input do. -/
theorem concludes_iff {host : Host σ} (hs : host.Settles) {state : σ} {readings : Nat → Reading}
    (ha : Answered host state readings) {ending : Ending Status} {replies : List Reading} :
    Concludes host state ending replies ↔
      replies = firsts readings replies.length ∧ Phase.start.Hears replies (.over ending) := by
  have hfollows (bound : Nat) := @runLoop_follows σ host bound {} .start (.running rfl rfl) state
  constructor
  · rintro ⟨bound, moves, result, last, ht, rfl, rfl⟩
    have hf := hfollows bound
    have hreplies := ha bound
    rw [ht] at hf hreplies
    refine ⟨eq_firsts hreplies, ?_⟩
    cases hf with
    | returned hh hover => exact hover ▸ hh
    | exited hh => exact hh
  · rintro ⟨hreplies, hh⟩
    obtain ⟨bound, hb⟩ := runLoop_listens hs {} state (replies.length + 1)
    have hsame (i : Nat) (reply other : Reading) (hr : replies[i]? = some reply)
        (ho : (heard .input (trace host bound (runLoop {}) state).moves)[i]? = some other) :
        reply = other := by
      rw [hreplies] at hr
      rw [getElem?_firsts hr, ha bound i other ho]
    rcases hrun : trace host bound (runLoop {}) state with ⟨moves, _ | ⟨result | status, last⟩⟩ <;>
      have hf := hfollows bound <;> rw [hrun] at hf hsame
    · -- a session that hears more would not be over
      have hmore := (hb bound (Nat.le_refl _)).resolve_left (by simp [hrun])
      rw [hrun] at hmore
      cases hf with
      | unfinished hh' =>
        exact absurd hmore (Nat.not_le.2 (Nat.lt_succ_of_le (hh.length_le hh' hsame)))
    · cases hf with
      | returned hh' hover =>
        subst hover
        obtain ⟨rfl, rfl⟩ := hh.unique hh' hsame
        exact ⟨bound, moves, .returned result, last, hrun, rfl, rfl⟩
    · cases hf with
      | exited hh' =>
        obtain ⟨rfl, rfl⟩ := hh.unique hh' hsame
        exact ⟨bound, moves, .exited status, last, hrun, rfl, rfl⟩

/-! ## The course of a session -/

/-- What a deed has made of the course of a shell, and what it heard for that. -/
inductive Steered (shell : Shell) : Deed → List Reading → Shell → Prop
  | unmoved {deed : Deed} {replies : List Reading} {after : Shell} : shell.Unmoved after →
    Steered shell deed replies after
  | quit {command : SimpleCommand} {after : Shell} : command.builtin? = some .quit →
    after.running = false →
      after.lastStatus = (command.argv[1]?.map Builtin.statusOf).getD shell.lastStatus →
        Steered shell (.run (.simple command)) [] after
  | endOfInput {replies : List Reading} {after : Shell} : replies.getLast? = some (.ok []) →
    after.running = false → after.lastStatus = shell.lastStatus →
      Steered shell .prompt replies after
  | failed {replies : List Reading} {after : Shell} {errno : Errno} : errno ≠ .eintr →
    replies.getLast? = some (.error errno) → after.running = false → after.lastStatus = 1 →
      Steered shell .prompt replies after

/-- All that a deed has to do with the course of a session: only a prompt reads, and only `exit`
leaves. -/
structure Deed.Steers (deed : Deed) (shell : Shell) (run : Run σ Shell) : Prop where
  heard : deed ≠ .prompt → heard .input run.moves = []
  returned : ∀ after last, run.result = some (.returned after, last) →
    shell.Steered deed (TinyShell.heard .input run.moves) after
  exited : ∀ status last, run.result = some (.exited status, last) →
    ∃ command, deed = .run (.simple command) ∧ command.builtin? = some .exit ∧
      status = (command.argv[1]?.map Builtin.statusOf).getD 0

section
variable {host : Host σ} {bound : Nat}

/-- A chore that ends as a deed may. -/
theorem Deed.Steers.chore {deed : Deed} {shell : Shell} {action : Action Shell} (hc : Chore action)
    (he : Ensures action fun
      | .returned after => shell.Steered deed [] after
      | .exited status => ∃ command, deed = .run (.simple command) ∧
          command.builtin? = some .exit ∧
          status = (command.argv[1]?.map Builtin.statusOf).getD 0) (state : σ) :
    deed.Steers shell (trace host bound action state) := by
  have hnone : TinyShell.heard .input (trace host bound action state).moves = [] :=
    hc.calls.heard_eq_nil host bound state
  refine ⟨fun _ => hnone, fun after last hr => ?_, fun status last hr => ?_⟩
  · rw [hnone]
    exact he σ host bound state (.returned after) last (by rw [← Action.trace_result, hr])
  · exact he σ host bound state (.exited status) last (by rw [← Action.trace_result, hr])

theorem Deed.Steers.chore_unmoved {deed : Deed} {shell : Shell} {action : Action Shell}
    (hc : Chore action) (he : Ensures action (Ending.Returned shell.Unmoved)) (state : σ) :
    deed.Steers shell (trace host bound action state) := by
  refine .chore hc (he.mono fun ending h => ?_) state
  rcases ending with after | status
  · exact .unmoved h
  · exact h.elim

theorem simple_steers (shell : Shell) (command : SimpleCommand) (state : σ) :
    (Deed.run (.simple command)).Steers shell
      (trace host bound (Deed.action shell (.run (.simple command))) state) := by
  refine .chore ((Job.run_chore _ _).bind fun _ => .pure _) ?_ state
  have hmet : Ensures (Job.run shell (.simple command)) (command.verdict.Met shell) :=
    Job.runSimple_met shell command
  refine hmet.bind (fun result h => .pure ?_) fun status h => ?_
  · unfold SimpleCommand.verdict at h
    rcases hb : command.builtin? with _ | _ | _ | _ <;> rw [hb] at h
    · exact .unmoved h.unmoved
    · exact .unmoved h.unmoved
    · cases h
    · cases h with
      | stop hstop hlast => exact .quit hb hstop hlast
  · unfold SimpleCommand.verdict at h
    rcases hb : command.builtin? with _ | _ | _ | _ <;> rw [hb] at h <;> cases h
    exact ⟨command, rfl, hb, rfl⟩

theorem prompt_steers (shell : Shell) (state : σ) :
    Deed.prompt.Steers shell (trace host bound (Deed.action shell .prompt) state) := by
  have hmoves : (trace host bound (Deed.action shell .prompt) state).moves =
      (trace host bound shell.getCommand state).moves := by
    rw [Deed.action, Action.trace_bind, Run.bind]
    rcases (trace host bound shell.getCommand state).result with _ | ⟨_ | _, _⟩
    · rfl
    · exact List.append_nil _
    · rfl
  refine ⟨fun hne => absurd rfl hne, fun after last hr => ?_, fun status last hr => ?_⟩
  · rw [Deed.action, Action.trace_bind] at hr
    obtain ⟨result, mid, hget, hpure⟩ := Run.bind_returned hr
    obtain ⟨rfl, -⟩ : result.2 = after ∧ mid = last := by simpa [Run.pure] using hpure
    obtain ⟨phase, hp⟩ := (getCommand_follows shell state).of_returned hget
    rw [hmoves]
    obtain ⟨ready, after⟩ := result
    cases hp with
    | line _ hu => exact .unmoved hu
    | endOfInput hlast hstop hsame => exact .endOfInput hlast hstop hsame
    | failed hne hlast hstop hone => exact .failed hne hlast hstop hone
  · have hstays : Ensures (Deed.action shell .prompt) (Ending.Returned fun _ => True) :=
      (getCommand_ensures shell).andThen fun _ _ => .pure trivial
    exact (hstays σ host bound state (.exited status) last
      (by rw [← Action.trace_result, hr])).elim

/-- Whatever the system answers. -/
theorem Deed.steers {deed : Deed} (hs : deed.Single) (shell : Shell) (state : σ) :
    deed.Steers shell (trace host bound (deed.action shell) state) := by
  cases deed with
  | reap => exact .chore_unmoved (reap_chore shell) (reap_ensures shell) state
  | prompt => exact prompt_steers shell state
  | take line =>
    refine .chore_unmoved ((Chore.log _).bind fun _ => .offhand (parseLine_offhand _ _))
      ((Ensures.log _).andThen fun _ _ => (parseLine_ensures shell line).mono fun ending h => ?_)
      state
    rcases ending with after | status
    · obtain rfl : after = _ := h
      exact ⟨rfl, rfl⟩
    · exact h.elim
  | run command =>
    have hunmoved (h : Ensures (Job.run shell command)
        (Ending.Returned fun result => shell.Unmoved result.2)) :
        (Deed.run command).Steers shell
          (trace host bound (Deed.action shell (.run command)) state) :=
      .chore_unmoved ((Job.run_chore _ _).bind fun _ => .pure _) (h.andThen fun _ h => .pure h)
        state
    cases command with
    | simple command => exact simple_steers shell command state
    | list => exact hs.elim
    | empty faults => exact hunmoved (.pure (.refl shell))
    | invalid faults =>
      exact hunmoved ((Ensures.call _).andThen fun _ _ => .pure (.refl shell))
    | pipeline pipeline => exact hunmoved (Job.runPipeline_unmoved shell pipeline)
  | leave =>
    refine .chore_unmoved (takeLeave_chore shell)
      ((takeLeave_ensures shell).mono fun ending h => ?_) state
    rcases ending with after | status
    · obtain rfl : after = shell := h
      exact .refl after
    · exact h.elim

end

/-! ## Two sessions -/

/-- Two systems that answer the reads of a session alike, and on which no write is interrupted for
ever, see it end alike behind the same input, or go on for ever on both. It ends as the phases of
the input do, and it ends if the input does. On the way it is a sequence of deeds, none of which is
due to a shell that is to stop but to take its leave, and each steers the shell as it may. -/
theorem runLoop_input_alone {host : Host σ} {other : Host τ} {state : σ} {state' : τ}
    {readings : Nat → Reading} (hs : host.Settles) (hs' : other.Settles)
    (ha : Answered host state readings) (ha' : Answered other state' readings) :
    (∀ ending replies, Concludes host state ending replies ↔
      Concludes other state' ending replies) ∧
    (∀ ending replies, Concludes host state ending replies ↔
      replies = firsts readings replies.length ∧ Phase.start.Hears replies (.over ending)) ∧
    ((∃ count, ∀ i, count ≤ i → readings i = .ok []) →
      ∃ ending replies, Concludes host state ending replies) ∧
    ∀ bound,
      Unfolds host bound Deed.InSession Prod.snd {} state (trace host bound (runLoop {}) state) ∧
      ∀ (deed : Deed) shell mid, deed.Single →
        deed.Steers shell (trace host bound (deed.action shell) mid) := by
  refine ⟨fun ending replies => ?_, fun ending replies => concludes_iff hs ha, ?_,
    fun bound => ⟨runLoop_unfolds {} state, fun deed shell mid hd => Deed.steers hd shell mid⟩⟩
  · rw [concludes_iff hs ha, concludes_iff hs' ha']
  · rintro ⟨count, hend⟩
    obtain ⟨least, ending, hh⟩ := Phase.hears_over hend
    refine ⟨ending, firsts readings least, (concludes_iff hs ha).2 ⟨?_, hh⟩⟩
    simp [firsts]

/-! ## Steady hosts -/

/-- A session reads its input byte by byte, and nothing else. -/
theorem runLoop_sips (shell : Shell) : Calls (Sips .input) Offhand shell.runLoop := by
  have hsip {request : Request} (h : request.isRead = false) : Sips .input request := by
    rintro other count rfl
    cases h
  have hread : Sips .input (.read .input 1) := by
    intro other count he
    obtain ⟨rfl, rfl⟩ : Descriptor.input = other ∧ 1 = count := by simpa using he
    exact ⟨rfl, rfl⟩
  refine (Calls.shellRules (fun _ => hsip) fun _ => Child.Body.offhand).runLoop ?_ ?_ shell
  · exact Calls.loopRules.read hread
  · exact .iterate

/-- A steady host answers the reads of a session as it feeds. -/
theorem answered_of_steady {host : Host σ} (h : host.Steady .input) (state : σ) :
    Answered host state (host.feed .input state) :=
  fun bound => ((runLoop_sips {}).heard_feed h bound state).heard

end Shell

/-! ## Rehearsals -/

namespace Recorder

theorem feed_eq {recorder recorder' : Recorder} (h : recorder.input = recorder'.input)
    (fd : Descriptor) : host.feed fd recorder = host.feed fd recorder' := by
  funext i
  induction i generalizing recorder recorder' with
  | zero =>
    exact congrArg (fun input => Except.ok (List.take 1 input)) h
  | succ i ih =>
    rw [← Host.feed_next, ← Host.feed_next]
    exact ih (congrArg (List.drop 1) h)

theorem collect_input (recorder : Recorder) (pid : Pid) :
    (recorder.collect pid).2.input = recorder.input := by
  unfold collect
  split <;> rfl

theorem answer_input {request : Request} (h : ∀ fd count, request ≠ .read fd count)
    (recorder : Recorder) : (answer request recorder).2.input = recorder.input := by
  cases request with
  | read fd count => exact absurd rfl (h fd count)
  | wait pid => exact collect_input _ pid
  | tryWait pid => exact collect_input recorder pid
  | pipe | processId => rfl
  | duplicate | close | openFile | write | changeDirectory | report =>
    simp only [answer, ifAwake]
    split <;> rfl

/-- A recorder gives its input to whoever reads it. -/
theorem host_steady (fd : Descriptor) : host.Steady fd where
  answer _ recorder h := feed_eq (answer_input h recorder) fd
  exec program argv recorder := feed_eq (by
    simp only [host, exec]
    split <;> rfl) fd
  fork recorder := feed_eq (by
    simp only [host, fork]
    split <;> rfl) fd
  join _ _ _ _ := .inr (feed_eq (by rfl) fd)
  note _ _ := rfl

end Recorder

namespace Shell

/-- A pipeline, a child in the background, a directory and a `quit`, once where no child can be
started, and once where programs fail and a file and a directory are missing. -/
theorem runLoop_input_alone_rehearsal :
    let input : Bytes :=
      Text.encode "ls | wc\nsleep 9 &\ncat < notes\ncd lost\nquit 3; ls\n"
    let hampered : Recorder := { input, failFork := true }
    let failing : Recorder := { input, execStatus := 2, badPaths := ["notes", "lost"] }
    Recorder.host.Settles ∧ Answered Recorder.host hampered (Recorder.host.feed .input hampered) ∧
      Answered Recorder.host failing (Recorder.host.feed .input hampered) ∧
      ∀ ending replies, Concludes Recorder.host hampered ending replies ↔
        Concludes Recorder.host failing ending replies := by
  intro input hampered failing
  have hs : Recorder.host.Settles := fun _ _ _ => .here (by simp [Recorder.host, Recorder.answer])
  have hsteady := Recorder.host_steady .input
  have ha := answered_of_steady hsteady hampered
  have ha' : Answered Recorder.host failing (Recorder.host.feed .input hampered) := by
    have hfeed : Recorder.host.feed .input failing = Recorder.host.feed .input hampered :=
      Recorder.feed_eq (by rfl) .input
    exact hfeed ▸ answered_of_steady hsteady failing
  exact ⟨hs, ha, ha', (runLoop_input_alone hs hs ha ha').1⟩

end Shell

end TinyShell
