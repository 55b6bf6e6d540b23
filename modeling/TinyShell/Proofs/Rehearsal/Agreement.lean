import TinyShell.Proofs.Action.Doings
import TinyShell.Proofs.Rehearsal.Attendance
import TinyShell.Proofs.Rehearsal.Plan
import TinyShell.Proofs.Shell.Halting
import TinyShell.Proofs.Shell.InputAlone
import TinyShell.Proofs.Shell.Notices

/-!
# The shell and the recorder agree on children

`Shell.runLoop_agrees`: whatever a recorder was set up for, a new shell comes to the end of its
session on it, and then nothing has gone wrong between the two. The shell was never taken for one of
its children, each descriptor and each number of a child is another one, and whoever the shell asks
for is kept, with the status that it ended with (`Recorder.InOrder`). Where the input was read to
its end, each child in the background has had a notice of its start and then one of its end
(`Shell.OnRecord`).

A look at a child on a recorder always shows its end, so the shell tracks nobody when it prompts
(`Shell.DueOnRecorder`). The numbers of the children are given out in a row, so no child gets that
of another one, which is what `Shell.Lives.rightful`, `Shell.Lives.attends` and
`Shell.Lives.notices_of_launched` rest on.
-/

namespace TinyShell

open Text (Bytes)
open TinyShell.Action (Ends trace)

variable {bound : Nat}

/-! ## A session on a recorder -/

namespace Recorder

/-- Each read that finds something takes it from the input. -/
theorem host_stocks_bytes :
    host.Stocks Move.findsInput fun recorder => recorder.input.length where
  answer request recorder := by
    cases request with
    | read fd count =>
      have htake : (recorder.input.drop count).length +
          (Move.findsInput (.asked recorder (.read fd count)
            (.ok (recorder.input.take count)))).toNat ≤ recorder.input.length := by
        rw [List.length_drop]
        by_cases hnone : recorder.input.take count = []
        · have hquiet : Move.findsInput (.asked recorder (.read fd count) (.ok [])) = false := by
            by_cases hfd : fd = .input <;> simp [Move.findsInput, Move.heard?, Reading.isEnd, hfd]
          rw [hnone, hquiet]
          exact Nat.sub_le ..
        · have hpos : 0 < (recorder.input.take count).length := List.length_pos_iff.2 hnone
          rw [List.length_take] at hpos
          have hone := Bool.toNat_le (Move.findsInput (.asked recorder (.read fd count)
            (.ok (recorder.input.take count))))
          omega
      exact htake
    | _ =>
      simp only [host, answer, ifAwake, collect]
      try split
      all_goals exact Nat.le_refl _
  exec program argv recorder := by
    simp only [host, exec]
    split <;> exact Nat.le_refl _
  fork recorder child := by
    simp only [host, fork]
    split <;> exact Nat.le_refl _
  join parent child pid status := Nat.le_max_right ..
  note _ _ := Nat.le_refl _

/-- A write is never interrupted. -/
theorem host_settles : host.Settles := fun _ _ _ => .here nofun

theorem session_ends (shell : Shell) (start : Recorder) : Ends host shell.runLoop start := by
  have hmarks : Shell.Marks host Move.findsInput := by
    refine ⟨fun move reply hm he => ?_, fun hc state => (hc.ends host_settles state).advances⟩
    simp [Move.findsInput, hm, he]
  exact (Shell.runLoop_advances hmarks shell start).ends
    (host_stocks_bytes.limited shell.runLoop start)

/-- A look never shows that a child still runs. -/
theorem poll_over {pid : Pid} {start last : Recorder} {tracked : Bool}
    (h : (trace host bound (Shell.poll pid) start).result =
      some (.returned tracked, last)) : tracked = false := by
  have hlook : (host.answer (.tryWait pid) start).1 = .error .echild ∨
      ∃ status, (host.answer (.tryWait pid) start).1 = .ok (some status) := by
    simp only [host, answer, collect]
    split
    · exact .inr ⟨_, rfl⟩
    · exact .inl rfl
  rw [Shell.poll, Action.trace_call_bind, Run.after_result] at h
  rcases hlook with hl | ⟨status, hl⟩ <;> rw [hl] at h
  · obtain ⟨rfl, -⟩ : false = tracked ∧ _ := by simpa [Run.pure] using h
    rfl
  · simp only [Action.trace_bind] at h
    obtain ⟨_, mid, -, h⟩ := Run.bind_returned h
    obtain ⟨rfl, -⟩ : false = tracked ∧ _ := by simpa [Run.pure] using h
    rfl

theorem pollAll_over {pids tracked : List Pid} {start last : Recorder}
    (h : (trace host bound (Shell.pollAll pids) start).result =
      some (.returned tracked, last)) : tracked = [] := by
  induction pids generalizing tracked start last with
  | nil =>
    obtain ⟨rfl, -⟩ : [] = tracked ∧ _ := by simpa [Shell.pollAll, Run.pure] using h
    rfl
  | cons pid rest ih =>
    simp only [Shell.pollAll, Action.trace_bind] at h
    obtain ⟨one, mid, hone, h⟩ := Run.bind_returned h
    obtain ⟨others, mid', hothers, h⟩ := Run.bind_returned h
    obtain rfl := poll_over hone
    obtain rfl := ih hothers
    obtain ⟨rfl, -⟩ : [] = tracked ∧ _ := by simpa [Run.pure] using h
    rfl

/-- No child is tracked once all of them were looked at. -/
theorem reap_over {shell reaped : Shell} {start last : Recorder}
    (h : (trace host bound shell.reap start).result = some (.returned reaped, last)) :
    reaped.background = [] := by
  rw [Shell.reap, Action.trace_bind] at h
  obtain ⟨tracked, mid, hall, h⟩ := Run.bind_returned h
  obtain ⟨rfl, -⟩ : { shell with background := tracked } = reaped ∧ _ := by
    simpa [Run.pure] using h
  exact pollAll_over hall

end Recorder

/-! ## What is written -/

namespace Recorder

/-- A recorder takes each text at once. -/
theorem written_display {label text : String} {start last : Recorder} {ending : Ending Unit}
    (h : (trace host bound (display label text) start).result = some (ending, last)) :
    written (trace host bound (display label text) start).moves = Text.encode text := by
  rw [trace_display] at h ⊢
  rcases bound with _ | count
  · cases h
  by_cases hne : Text.encode text = []
  · rw [hne]
    rfl
  have hone : writeOutcome (Text.encode text)
      (host.answer (.write .output (Text.encode text)) start).1 = .inl [] := by
    obtain ⟨byte, rest, hbytes⟩ := List.exists_cons_of_ne_nil hne
    rw [hbytes]
    exact congrArg Sum.inl (List.drop_eq_nil_of_le (Nat.le_refl _))
  simp only [writeRounds_succ host .output _ _ hne, hone] at h ⊢
  rcases count with _ | count
  · cases h
  · have hmove : (Move.asked start (.write .output (Text.encode text))
        (host.answer (.write .output (Text.encode text)) start).1).written =
          Text.encode text := by simp [Move.written]
    exact (List.append_nil _).trans hmove

end Recorder

/-- What was said is what was written. -/
theorem Says.written {texts : List String} {moves : List (Move Recorder)}
    (h : Says Recorder.host bound texts moves) :
    TinyShell.written moves = texts.flatMap Text.encode := by
  induction h with
  | nothing => rfl
  | @other move moves texts hw _ ih =>
    have hnone : move.written = [] := by
      cases move with
      | asked before request reply => cases request <;> first | rfl | cases hw
      | executed | forked => rfl
    rw [TinyShell.written, List.flatMap_cons, hnone]
    exact ih
  | @text label text state last texting moves texts ht _ ih =>
    have htext := @Recorder.written_display bound label text state last (.returned ()) (by rw [ht])
    rw [ht] at htext
    rw [TinyShell.written, List.flatMap_append, List.flatMap_cons]
    exact congrArg₂ (· ++ ·) htext ih

/-! ## Histories on a recorder -/

namespace Shell

variable {start last : Recorder}

/-- What is due in a session on a recorder. When the shell prompts it tracks nobody, since each look
has shown that the child has ended. -/
def DueOnRecorder (deed : Deed) (shell : Shell) : Prop :=
  deed.InSession shell ∧ (deed = .prompt → shell.background = [])

theorem dueOnRecorder_allows (bound : Nat) : Allows Recorder.host bound DueOnRecorder where
  deed _ _ hne h := ⟨h, fun he => absurd he hne⟩
  prompt _ _ _ _ hr hreap := ⟨hr, fun _ => Recorder.reap_over hreap⟩

/-- A session that has ended is a history of deeds, and nothing else. -/
theorem lives_of_ended {shell : Shell} {ending : Ending (Status × Shell)}
    (h : (trace Recorder.host bound shell.runLoop start).result = some (ending, last)) :
    ∃ episodes after,
      (trace Recorder.host bound shell.runLoop start).moves = Episode.allMoves episodes ∧
      Lives Recorder.host bound DueOnRecorder shell start episodes after last ∧
      ∀ result, ending = .returned result → result.2 = after ∧ after.running = false := by
  have hstopped (result : Status × Shell) (hr : ending = .returned result) :
      result.2.running = false := runLoop_stopped (hr ▸ h)
  have hu := runLoop_unfolds_due (dueOnRecorder_allows bound) shell start
  generalize trace Recorder.host bound shell.runLoop start = run at hu h
  cases hu with
  | @returned episodes value last' hl =>
    obtain ⟨rfl, rfl⟩ : Ending.returned value = ending ∧ last' = last := by simpa using h
    refine ⟨episodes, value.2, rfl, hl, ?_⟩
    rintro _ ⟨⟩
    exact ⟨rfl, hstopped value rfl⟩
  | paused => cases h
  | @broken episodes between mid deed tail cut result hl hs hd ht hb =>
    cases hb with
    | cut => cases h
    | @left status last' =>
      obtain ⟨rfl, rfl⟩ : Ending.exited status = ending ∧ last' = last := by simpa using h
      obtain ⟨htail, _, _, hlast⟩ := Deed.of_exited hs (congrArg Run.result ht)
      rw [ht] at htail
      obtain rfl : tail = [] := htail
      obtain rfl : last' = mid := hlast
      exact ⟨episodes, between, List.append_nil _, hl, nofun⟩

end Shell

/-! ## The agreement -/

/-- What a recorder was asked, it could do, and what it was told was in order. -/
structure Recorder.InOrder (bound : Nat) (moves : List (Move Recorder)) (last : Recorder) :
    Prop where
  /-- Outside of its children the shell is never taken for another program. -/
  before : ∀ move ∈ moves, move.before.replaced = false
  after : last.replaced = false
  descriptors : (descriptorsOf moves).Nodup ∧ ∀ fd ∈ descriptorsOf moves, 3 ≤ fd
  children : (childrenOf moves).Nodup
  /-- At each call, those children are kept that were started and not yet asked for. -/
  kept : ∀ earlier move later, moves = earlier ++ move :: later →
    move.before.kept = outAfter [] (dealings earlier)
  /-- Each wait and each look is answered with the status that the child ended with. -/
  answered : ∀ earlier move later pid, moves = earlier ++ move :: later → move.AsksFor pid →
    ∃ fork ∈ (Ledger.of earlier).forks, ∃ status, fork.result = .ok pid ∧
      fork.Left host bound status ∧ move.Tells pid status
  /-- The shell never says that a wait has failed. -/
  reports : ∀ before level message reply,
    .asked before (.report level message) reply ∈ moves → NoWaitFailure level message
  /-- Nor is there such a message on record. -/
  content : last.Content

/-- A session on a recorder, deed by deed. -/
structure Shell.OnRecord (bound : Nat) (start : Recorder) (episodes : List (Episode Recorder))
    (shell : Shell) (last : Recorder) : Prop where
  lives : Lives Recorder.host bound DueOnRecorder {} start episodes shell last
  /-- At each point between two deeds, whoever is tracked is kept. -/
  tracked : ∀ earlier later, episodes = earlier ++ later → ∃ between mid,
    Lives Recorder.host bound DueOnRecorder {} start earlier between mid ∧
      Lives Recorder.host bound DueOnRecorder between mid later shell last ∧
        ∀ pid ∈ between.background, pid ∈ mid.kept
  /-- At the end of the input nobody is tracked, and of each child that was launched for the
  background there is one notice of its start and then one of its end, with its own status. -/
  ended : (∃ e ∈ episodes, e.AtEnd) → shell.background = [] ∧
    ∃ texts, Says Recorder.host bound texts (Episode.allMoves episodes) ∧
      last.record.output = texts.flatMap Text.encode ∧
      ∀ e ∈ episodes, ∀ pid ∈ e.launched,
        ∃ fork ∈ (Ledger.of (Episode.allMoves episodes)).forks, ∃ status,
          fork.result = .ok pid ∧ fork.Left Recorder.host bound status ∧
            texts.filter (speaksOf pid) = [startNotice pid,
              "[" ++ Text.decimal pid ++ "] Done " ++ Text.decimal status ++ "\n"]

/-- The books of a recorder that could do what it was asked are in order. -/
theorem Recorder.Attends.inOrder {start last : Recorder} {moves : List (Move Recorder)}
    (h : Attends bound start moves last) (hawake : start.replaced = false)
    (hnone : start.ended = []) (hfirst : start.nextDescriptor = 3) (hcontent : start.Content)
    (hn : (childrenOf moves).Nodup) (hlen : 3 + (descriptorsOf moves).length < 2 ^ 31) :
    InOrder bound moves last := by
  have hkept := kept_of_none hnone
  have hbooks := h.books hawake
  have hrow : Consecutive (.ofNat 3) (descriptorsOf moves) last.nextDescriptor := by
    have hrow := hbooks.descriptors
    rwa [hfirst] at hrow
  have hsize : (descriptorsOf moves).length < Int32.size := by
    change _ < 2 ^ 32
    omega
  refine ⟨hbooks.before, hbooks.awake, ⟨hrow.nodup hsize, fun fd => hrow.le hlen⟩, hn, ?_, ?_,
    fun before level message reply => h.serves, hbooks.content hcontent⟩
  · rintro earlier move later rfl
    exact hkept ▸ h.kept_before hawake (fresh_of_nodup hn (by simp [hkept]))
  · rintro earlier move later pid rfl ha
    exact h.answered hawake hnone ha

/-- A look shows the status that the child ended with. -/
theorem Recorder.Attends.shown {start last : Recorder} {moves : List (Move Recorder)} {pid : Pid}
    {look : Look} (h : Attends bound start moves last) (hawake : start.replaced = false)
    (hnone : start.ended = []) (hm : .polled pid look ∈ dealings moves) :
    ∃ fork ∈ (Ledger.of moves).forks, ∃ status, fork.result = .ok pid ∧
      fork.Left host bound status ∧ look = .ok (some status) := by
  obtain ⟨move, hmove, hact⟩ := List.mem_filterMap.1 hm
  obtain ⟨earlier, later, rfl⟩ := List.append_of_mem hmove
  obtain ⟨before, rfl⟩ : ∃ before, move = .asked before (.tryWait pid) look := by
    cases move with
    | asked before request reply =>
      cases request with
      | tryWait other =>
        obtain ⟨rfl, rfl⟩ := Act.polled.inj (Option.some.inj hact)
        exact ⟨before, rfl⟩
      | _ => cases hact
    | executed => cases hact
    | forked before result child => cases result <;> cases hact
  have hasks : (Move.asked before (.tryWait pid) look).AsksFor pid := rfl
  obtain ⟨fork, hf, status, hr, hl, -, hlook⟩ := h.answered hawake hnone hasks
  refine ⟨fork, ?_, status, hr, hl, hlook⟩
  rw [Ledger.of_append]
  exact List.mem_append_left _ hf

namespace Shell

variable {start last : Recorder}

/-- At the end of its input a shell tracks nobody. -/
theorem Lives.background_at_end {shell after : Shell} {episodes : List (Episode Recorder)}
    (h : Lives Recorder.host bound DueOnRecorder shell start episodes after last)
    {e : Episode Recorder} (he : e ∈ episodes) (hend : e.AtEnd) : after.background = [] := by
  obtain ⟨earlier, later, rfl⟩ := List.append_of_mem he
  obtain ⟨between, mid, -, hl⟩ := h.parts
  cases hl with
  | @act deed shell between after start mid last moves episodes hs hd ht hl =>
    obtain ⟨rfl, hstop⟩ := hend
    obtain rfl := hl.stopped (fun _ _ hd => hd.1) hstop
    obtain ⟨texts, -, hm⟩ := minds_of_trace hs ht
    generalize dealings moves = acts at hm
    cases hm with
    | prompted hafter => exact hafter.trans (hd.2 rfl)

/-- A child that was launched for the background and is tracked no more was looked at once, and the
look has shown its status. -/
theorem Lives.notices_at_end {shell after : Shell} {episodes : List (Episode Recorder)}
    (h : Lives Recorder.host bound DueOnRecorder shell start episodes after last)
    (hnone : shell.background = []) (hn : (childrenOf (Episode.allMoves episodes)).Nodup)
    (ha : Recorder.Attends bound start (Episode.allMoves episodes) last)
    (hawake : start.replaced = false) (hended : start.ended = [])
    {e : Episode Recorder} (he : e ∈ episodes) {pid : Pid} (hp : pid ∈ e.launched)
    (hgone : pid ∉ after.background) :
    ∃ fork ∈ (Ledger.of (Episode.allMoves episodes)).forks, ∃ status,
      fork.result = .ok pid ∧ fork.Left Recorder.host bound status ∧
        episodes.flatMap (Episode.noticesOf pid) =
          startNotice pid :: endNotice pid (.ok (some status)) := by
  obtain ⟨earlier, later, hsplit⟩ := List.append_of_mem he
  obtain ⟨hsaid, hwatched, hseen⟩ := h.notices_of_launched hnone hn hsplit hp
  have hshown (look : Look)
      (hm : .polled pid look ∈ career pid (dealings (Episode.allMoves later))) :
      ∃ fork ∈ (Ledger.of (Episode.allMoves episodes)).forks, ∃ status,
        fork.result = .ok pid ∧ fork.Left Recorder.host bound status ∧
          look = .ok (some status) := by
    refine ha.shown hawake hended ?_
    have hlater := (career_sublist ..).subset hm
    rw [hsplit, dealings_split]
    exact List.mem_append_right _ (List.mem_append_right _ hlater)
  generalize career pid (dealings (Episode.allMoves later)) = course at hsaid hwatched hseen hshown
  cases hwatched with
  | nothing => exact absurd rfl (hseen hgone)
  | still =>
    obtain ⟨_, _, _, _, _, hlook⟩ := hshown _ List.mem_cons_self
    cases hlook
  | settled =>
    obtain ⟨fork, hf, status, hr, hl, rfl⟩ := hshown _ List.mem_cons_self
    exact ⟨fork, hf, status, hr, hl, hsaid⟩

/-- A session on a recorder, in the terms of its deeds. -/
theorem Lives.onRecord {shell : Shell} {episodes : List (Episode Recorder)}
    (h : Lives Recorder.host bound DueOnRecorder {} start episodes shell last)
    (ha : Recorder.Attends bound start (Episode.allMoves episodes) last)
    (hn : (childrenOf (Episode.allMoves episodes)).Nodup) (hawake : start.replaced = false)
    (hended : start.ended = []) (hout : start.record.output = []) :
    OnRecord bound start episodes shell last where
  lives := h
  tracked := by
    rintro earlier later rfl
    obtain ⟨between, mid, hl, hl'⟩ := h.parts
    rw [Episode.allMoves, List.flatMap_append, childrenOf_append] at hn
    have hkept := Recorder.kept_of_none hended
    have hstart : Holds {} start.kept := ⟨.nil, by simp⟩
    have hf := @fresh_of_nodup start.kept _ (List.nodup_append.1 hn).1 (by simp [hkept])
    have hearlier := (hl.attends hawake hf (hl.rightful hstart hf)).kept hawake hf
    exact ⟨between, mid, hl, hl', hearlier ▸ (hl.holds hstart hf).1.out⟩
  ended := by
    rintro ⟨e, he, hend⟩
    have hnone := h.background_at_end he hend
    obtain ⟨texts, htexts, hsaid⟩ := h.notices new_unbracketed
    refine ⟨hnone, texts, htexts, ?_, fun e he pid hp => ?_⟩
    · rw [(ha.books hawake).output, hout, List.nil_append, htexts.written]
    · obtain ⟨fork, hf, status, hr, hl, hpid⟩ :=
        h.notices_at_end rfl hn ha hawake hended he hp (by simp [hnone])
      exact ⟨fork, hf, status, hr, hl, (hsaid pid).trans hpid⟩

/-- The shell and a recorder agree on children. Whatever the recorder was set up for, the session of
a new shell on it comes to an end. If no number has overflowed by then, what the recorder was asked
and told was in order, from the first deed of the shell to the last, and if the session did not end
with `exit` or `quit` it has come to the end of the input. -/
theorem runLoop_agrees (input : Bytes) (missing badPaths : List String) (failFork : Bool)
    (execStatus : Status) :
    let start : Recorder := { input, missing, badPaths, failFork, execStatus }
    Ends Recorder.host (runLoop {}) start ∧ ∀ bound ending last,
      let run := trace Recorder.host bound (runLoop {}) start
      run.result = some (ending, last) → 100 + (childrenOf run.moves).length < 2 ^ 31 →
        3 + (descriptorsOf run.moves).length < 2 ^ 31 →
          Recorder.InOrder bound run.moves last ∧
          ∃ episodes shell, run.moves = Episode.allMoves episodes ∧
            OnRecord bound start episodes shell last ∧
            ∀ result, ending = .returned result → result.2 = shell ∧
              ((∃ e ∈ episodes, e.AtEnd) ∨ ∃ e ∈ episodes, ∃ command,
                e.deed = .run (.simple command) ∧ command.builtin? = some .quit) := by
  intro start
  refine ⟨Recorder.session_ends {} start, ?_⟩
  intro bound ending last run h hpids hfds
  obtain ⟨episodes, shell, hmoves, hl, hvalue⟩ := lives_of_ended h
  have hn : (childrenOf run.moves).Nodup := by
    have hlen : (childrenOf run.moves).length < Int32.size := by
      change _ < 2 ^ 32
      omega
    obtain ⟨next, hc, -⟩ := (runLoop_sips {}).numbered bound start
    exact hc.nodup hlen
  change run.moves = _ at hmoves
  rw [hmoves] at hn hfds ⊢
  have hfresh := @fresh_of_nodup [] _ hn (by simp)
  have hright := hl.rightful ⟨.nil, by simp⟩ hfresh
  have ha := hl.attends rfl hfresh hright
  refine ⟨ha.inOrder rfl rfl rfl (by simp [Recorder.Content, start]) hn hfds, episodes, shell, rfl,
    hl.onRecord ha hn rfl rfl rfl, fun result hr => ?_⟩
  obtain ⟨hsame, hstop⟩ := hvalue result hr
  exact ⟨hsame, hl.halted rfl hstop⟩

/-- A pipeline in the background that opens a file, a child that is waited for, and a program that
is not found, also in the background. All four have been asked for at the end. -/
theorem runLoop_agrees_jobs :
    let input := Text.encode "sleep 9 | wc > f &\nls\nwho &\n"
    let start : Recorder := { input, missing := ["who"], execStatus := 3 }
    let run := trace Recorder.host 40 (runLoop {}) start
    childrenOf run.moves = [101, 102, 103, 104] ∧ descriptorsOf run.moves = [3, 4, 5] ∧
      ∃ ending last, run.result = some (ending, last) ∧ last.ended = [] ∧
        Recorder.InOrder 40 run.moves last ∧
        ∃ episodes shell, run.moves = Episode.allMoves episodes ∧
          OnRecord 40 start episodes shell last := by
  intro input start run
  obtain ⟨hpids, hfds, hended⟩ : childrenOf run.moves = [101, 102, 103, 104] ∧
      descriptorsOf run.moves = [3, 4, 5] ∧
      (run.result.map fun result => result.2.ended) = some [] := by decide +kernel
  obtain ⟨⟨ending, last⟩, hr, hlast⟩ := Option.map_eq_some_iff.1 hended
  obtain ⟨horder, episodes, shell, hmoves, hrecord, -⟩ :=
    (runLoop_agrees input ["who"] [] false 3).2 40 ending last hr
      (by rw [hpids]; decide) (by rw [hfds]; decide)
  exact ⟨hpids, hfds, ending, last, hr, hlast, horder, episodes, shell, hmoves, hrecord⟩

end Shell

end TinyShell
