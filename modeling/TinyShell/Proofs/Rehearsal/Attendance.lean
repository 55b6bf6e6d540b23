import TinyShell.Proofs.Rehearsal.Books

/-!
# What a recorder is asked

`Action.Attended`: as long as what an action asks is rightful, a recorder attends to it. It has the
rules of a shell (`Action.Attended.shellRules`), so a recorder attends to each deed, and to a whole
history of deeds (`Shell.Lives.attends`).
-/

namespace TinyShell

open TinyShell.Action (trace)

variable {τ α β : Type} {bound : Nat} {start mid last : Recorder}

/-! ## Runs -/

/-- If the run asks only what is rightful, the recorder attends to it. -/
def Run.Attended (run : Run Recorder α) (bound : Nat) (start : Recorder) : Prop :=
  start.replaced = false → Fresh start.kept (dealings run.moves) →
    Rightful start.kept (dealings run.moves) →
      ∃ last, Recorder.Attends bound start run.moves last ∧
        ∀ ending after, run.result = some (ending, after) → after = last

namespace Run.Attended

variable {run : Run Recorder α}

theorem pure {value : α} : (Run.pure value start).Attended bound start := by
  refine fun _ _ _ => ⟨start, .rest, fun ending after hr => ?_⟩
  obtain ⟨-, rfl⟩ : Ending.returned value = ending ∧ start = after := by simpa [Run.pure] using hr
  rfl

theorem bind {next : α → Recorder → Run Recorder β} (h : run.Attended bound start)
    (hn : ∀ value last, (next value last).Attended bound last) :
    (run.bind next).Attended bound start := by
  obtain ⟨moves, _ | ⟨value | status, last⟩⟩ := run
  · intro hawake hf hr
    obtain ⟨last, hl, -⟩ := h hawake hf hr
    exact ⟨last, hl, nofun⟩
  · intro hawake hf hr
    have hmoves : (Run.bind ⟨moves, some (.returned value, last)⟩ next).moves =
        moves ++ (next value last).moves := rfl
    rw [hmoves, dealings_append] at hf hr
    obtain ⟨hf₁, hf₂⟩ := fresh_append.1 hf
    obtain ⟨hr₁, hr₂⟩ := rightful_append.1 hr
    obtain ⟨mid, hl, hlast⟩ := h hawake hf₁ hr₁
    obtain rfl : last = mid := hlast _ _ rfl
    have hkept := hl.kept hawake hf₁
    rw [← hkept] at hf₂ hr₂
    obtain ⟨last', hl', hlast'⟩ := hn value last (hl.books hawake).awake hf₂ hr₂
    exact ⟨last', hmoves ▸ hl.append hl', hlast'⟩
  · intro hawake hf hr
    obtain ⟨last, hl, hlast⟩ := h hawake hf hr
    refine ⟨last, hl, fun ending after hr => ?_⟩
    obtain ⟨-, rfl⟩ : Ending.exited status = ending ∧ _ = after := by simpa [Run.bind] using hr
    exact hlast _ _ rfl

theorem rules : Rules fun start run => run.Attended bound start where
  cut start := fun _ _ _ => ⟨start, .rest, nofun⟩
  pure _ _ := .pure
  bind := .bind

/-- A call that is served comes first. -/
theorem asked {request : Request} (hs : start.Serves request)
    (h : run.Attended bound (Recorder.answer request start).2) :
    (run.after [.asked start request (Recorder.answer request start).1]).Attended bound start := by
  intro hawake hf hr
  rw [Run.after_moves, dealings_append] at hf hr
  have hstep := @Recorder.Books.asked bound start request hawake hs
  have hkept := Recorder.answer_kept request start
  obtain ⟨last, hl, hlast⟩ := h hstep.awake (hkept ▸ (fresh_append.1 hf).2)
    (hkept ▸ (rightful_append.1 hr).2)
  exact ⟨last, .asked hs hl, hlast⟩

end Run.Attended

namespace Action

/-- However much of the action is done on a recorder, the recorder attends to it. -/
def Attended (action : Action α) : Prop :=
  ∀ bound start, (trace Recorder.host bound action start).Attended bound start

namespace Attended

theorem pure (value : α) : Attended (pure value) := fun _ _ => Run.Attended.pure

theorem bind {action : Action α} {next : α → Action β} (h : Attended action)
    (hn : ∀ value, Attended (next value)) : Attended (action >>= next) := by
  intro bound start
  rw [trace_bind]
  exact (h bound start).bind fun value last => hn value bound last

theorem exit (status : Status) : Attended (.exit status : Action α) := by
  refine fun _ start _ _ _ => ⟨start, .rest, fun ending after hr => ?_⟩
  obtain ⟨-, rfl⟩ : Ending.exited status = ending ∧ start = after := by
    simpa [trace] using hr
  rfl

theorem call {request : Request} (h : ∀ recorder : Recorder, recorder.Serves request) :
    Attended (call request) := fun _ start => Run.Attended.asked (h start) Run.Attended.pure

theorem log (text : String) : Attended (log text) := fun _ _ => Run.Attended.pure

/-- A wait that is rightful has an answer. -/
theorem waited {next : Except Errno Status → Action α} (h : ∀ status, Attended (next (.ok status)))
    (pid : Pid) : Attended (Action.call (.wait pid) >>= next) := by
  intro bound start
  rw [trace_call_bind]
  by_cases hp : pid ∈ start.kept
  · obtain ⟨status, hr, -⟩ :=
      @Recorder.collect_of_mem (start.addEvent (.asked (.wait pid))) pid hp
    have hreply : (Recorder.answer (.wait pid) start).1 = .ok status := hr
    refine Run.Attended.asked hp ?_
    rw [show (Recorder.host.answer (.wait pid) start).1 = .ok status from hreply]
    exact h status bound _
  · exact fun _ _ hr => absurd (hr.1 pid (by simp [Act.concerns])) hp

/-- So has a look, and it shows that the child has ended. -/
theorem looked {next : Look → Action α} (h : ∀ status, Attended (next (.ok (some status))))
    (pid : Pid) : Attended (Action.call (.tryWait pid) >>= next) := by
  intro bound start
  rw [trace_call_bind]
  by_cases hp : pid ∈ start.kept
  · obtain ⟨status, hr, -⟩ := Recorder.collect_of_mem hp
    have hreply : (Recorder.answer (.tryWait pid) start).1 = .ok (some status) := by
      simp [Recorder.answer, hr, Except.map]
    refine Run.Attended.asked hp ?_
    rw [show (Recorder.host.answer (.tryWait pid) start).1 = .ok (some status) from hreply]
    exact h status bound _
  · exact fun _ _ hr => absurd (hr.1 pid (by simp [Act.concerns])) hp

theorem fork {body : Action Status} (hb : Child.Body body) : Attended (fork body) := by
  intro bound start hawake _ _
  rw [Action.fork]
  rcases hf : Recorder.fork start with ⟨errno | pid, born⟩
  · have hrun : trace Recorder.host bound (.spawn body .done) start =
        ⟨[.forked start (.error errno) []], some (.returned (.error errno), born)⟩ :=
      trace_spawn_error hf
    rw [hrun]
    exact ⟨born, .refused hf .rest, by simp⟩
  · have hborn : born.replaced = false := by rw [(Recorder.fork_ok hf).2]; exact hawake
    obtain ⟨child, ending, gone, hc, -, -⟩ := hb.prepares.ends hb.offhand bound hborn
    have hrun : trace Recorder.host bound (.spawn body .done) start =
        ⟨[.forked start (.ok pid) child],
          some (.returned (.ok pid), gone.finish pid ending.status)⟩ := by
      have hend : (trace Recorder.host bound body born).result = some (ending, gone) := by rw [hc]
      rw [trace_spawn_ok hf hend, hc]
      rfl
    rw [hrun]
    exact ⟨_, .forked hf hb hc .rest, by simp⟩

theorem iterate {body : τ → Action (τ ⊕ β)} (h : ∀ start, Attended (body start)) (start : τ) :
    Attended (iterate body start) := by
  intro bound recorder
  rw [trace_iterate]
  exact Run.Attended.rules.rounds (fun start => h start bound) bound start recorder

theorem loopRules : LoopRules (fun request => ∀ recorder : Recorder, recorder.Serves request)
    @Attended where
  pure := .pure
  bind := .bind
  log := .log
  call _ hs := .call hs
  close hs hn := .bind (.call hs) fun _ => hn
  iterate := .iterate

theorem display (label text : String) : Attended (TinyShell.display label text) :=
  loopRules.display (fun _ => .call fun _ => trivial) label text

theorem shellRules : Shell.Rules @Attended where
  toRules := loopRules.mono fun request hr recorder => by
    cases request <;> first | exact hr | trivial
  exit := .exit
  display := .display
  fork := .fork
  waitFor pid := by
    rw [Job.waitFor]
    exact .waited (fun status => .pure status) pid
  poll pid := by
    rw [Shell.poll]
    exact .looked (fun _ => .bind (.display _ _) fun _ => .pure _) pid

end Attended

end Action

open TinyShell.Action (Attended)

namespace Shell

theorem Deed.attended (deed : Deed) (shell : Shell) : Attended (deed.action shell) :=
  Attended.shellRules.deed (Attended.loopRules.read fun _ => trivial) deed shell

/-- A recorder attends to a history in which all that is asked is rightful. -/
theorem Lives.attends {due : Deed → Shell → Prop} {shell after : Shell}
    {episodes : List (Episode Recorder)}
    (h : Lives Recorder.host bound due shell start episodes after last)
    (hawake : start.replaced = false)
    (hf : Fresh start.kept (dealings (Episode.allMoves episodes)))
    (hr : Rightful start.kept (dealings (Episode.allMoves episodes))) :
    Recorder.Attends bound start (Episode.allMoves episodes) last := by
  induction h with
  | rest => exact .rest
  | @act deed shell between after start mid last moves episodes _ _ ht _ ih =>
    rw [dealings_cons] at hf hr
    obtain ⟨hf, hf'⟩ := fresh_append.1 hf
    obtain ⟨hr, hr'⟩ := rightful_append.1 hr
    have hdeed := deed.attended shell bound start hawake
    rw [ht] at hdeed
    obtain ⟨mid', hfirst, hlast⟩ := hdeed hf hr
    obtain rfl : mid = mid' := hlast _ _ rfl
    have hkept := hfirst.kept hawake hf
    exact hfirst.append (ih (hfirst.books hawake).awake (hkept ▸ hf') (hkept ▸ hr'))

end Shell

end TinyShell
