import TinyShell.Proofs.Shell.Offhand
import TinyShell.Proofs.Shell.Write
import TinyShell.Rehearsal.Recorder
import TinyShell.Shell.Job

/-!
# The calls of a pipeline

`runPipeline_orderly`: whatever comes of its calls, the shell closes each end of each pipe that it
made exactly once and before it waits, waits for each child that it started exactly once or keeps
it as a child in the background, and leaves nothing half done when a pipe or a child is refused.

The parts: what each function enters in the ledger (`makePipes_returns`, `spawnStages_returns`,
`waitForAll_returns`, `track_writes`), and that children without loops always end
(`Child.ofStage_offhand`), so that only a notice on the terminal can keep the shell.
-/

namespace TinyShell

variable {σ : Type}

/-- The status that a wait comes to; a wait that failed counts as -1. -/
def waitStatus (reply : Except Errno Status) : Status := reply.toOption.getD (-1)

/-- The status of the last wait. -/
def lastWait (waits : List (Pid × Except Errno Status)) (default : Status) : Status :=
  (waits.getLast?.map fun wait => waitStatus wait.2).getD default

@[simp]
theorem lastWait_nil (default : Status) : lastWait [] default = default := rfl

theorem lastWait_cons (wait : Pid × Except Errno Status)
    (rest : List (Pid × Except Errno Status)) (default : Status) :
    lastWait (wait :: rest) default = lastWait rest (waitStatus wait.2) := by
  unfold lastWait
  rw [List.getLast?_cons]
  cases rest.getLast? <;> rfl

namespace Job

open TinyShell.Action (trace)

variable (host : Host σ) (bound : Nat)

/-! ## Pipes -/

theorem makePipes_returns (count : Nat) (state : σ) :
    (trace host bound (makePipes count) state).Returns fun moves made _ =>
      Ledger.of moves = { pipes := made.1.map .ok ++ (made.2.map .error).toList } ∧
        (made.2 = none → made.1.length = count) := by
  induction count generalizing state with
  | zero => exact .pure ⟨rfl, fun _ => rfl⟩
  | succ count ih =>
    rw [makePipes, Action.trace_call_bind]
    rcases host.answer .pipe state with ⟨errno | pipe, state'⟩
    · exact .after (.pure ⟨by simp [Ledger.of_cons, Ledger.entry], by simp⟩)
    · rw [Action.trace_bind]
      refine .after (.bind (ih state') ?_)
      rintro moves ⟨pipes, failure⟩ after ⟨hl, hn⟩
      refine .pure ⟨?_, fun h => by simpa using hn h⟩
      simp [Ledger.of_cons, Ledger.entry, hl]

/-! ## Children -/

/-- The pipe that a stage reads, where `pipes` are those that the stages write and `first` is what
the first of them reads. -/
def pipeBefore (first : Option Pipe) (pipes : List Pipe) : Nat → Option Pipe
  | 0 => first
  | i + 1 => pipes[i]?

/-- The children of stages: one for each, in order, up to the first that is refused, and each runs
its own stage between the pipes on its sides. -/
structure Staged (pipes : List Pipe) (before : Option Pipe) (after : List Pipe)
    (stages : List SimpleCommand) (forks : List (Fork σ)) (pids : List Pid)
    (failure : Option Errno) : Prop where
  results : forks.map Fork.result = pids.map .ok ++ (failure.map .error).toList
  complete : failure = none → pids.length = stages.length
  cut : failure ≠ none → pids.length < stages.length
  child : ∀ i fork pid, forks[i]? = some fork → fork.result = .ok pid →
    ∃ stage, stages[i]? = some stage ∧
      fork.child = (trace host bound (Child.ofStage pipes (pipeBefore before after i) after[i]?
        stage) (host.fork fork.before).2).moves

namespace Staged

variable {host bound} {pipes : List Pipe} {before : Option Pipe} {after : List Pipe}
  {stage : SimpleCommand} {rest : List SimpleCommand}

theorem nil : Staged host bound pipes before after [] [] [] none :=
  ⟨rfl, fun _ => rfl, by simp, by simp⟩

/-- The first stage is refused, so none is started. -/
theorem refused (state : σ) (errno : Errno) :
    Staged host bound pipes before after (stage :: rest) [⟨state, .error errno, []⟩] []
      (some errno) := by
  refine ⟨rfl, by simp, by simp, fun i fork pid hi hp => ?_⟩
  obtain ⟨-, rfl⟩ : i = 0 ∧ fork = ⟨state, .error errno, []⟩ := by
    rcases i with _ | i <;> simp_all
  cases hp

/-- The first stage is started; what it writes is what the next one reads. -/
theorem cons {state state' : σ} {pid : Pid} {forks : List (Fork σ)} {pids : List Pid}
    {failure : Option Errno} (hf : host.fork state = (.ok pid, state'))
    (h : Staged host bound pipes after.head? after.tail rest forks pids failure) :
    Staged host bound pipes before after (stage :: rest)
      (⟨state, .ok pid, (trace host bound (Child.ofStage pipes before after.head? stage)
        state').moves⟩ :: forks) (pid :: pids) failure := by
  refine ⟨by simp [h.results], by simpa using h.complete, by simpa using h.cut,
    fun i fork pid' hi hp => ?_⟩
  rcases i with _ | i
  · obtain rfl : _ = fork := by simpa using hi
    exact ⟨stage, rfl, by simp [pipeBefore, hf, List.head?_eq_getElem?]⟩
  · obtain ⟨stage', hstage, hmoves⟩ := h.child i fork pid' (by simpa using hi) hp
    refine ⟨stage', by simpa using hstage, ?_⟩
    rw [hmoves]
    rcases i with _ | i <;> simp [pipeBefore, List.head?_eq_getElem?]

end Staged

theorem spawnStages_returns (pipes : List Pipe) (before : Option Pipe) (after : List Pipe)
    (stages : List SimpleCommand) (state : σ) :
    (trace host bound (spawnStages pipes before after stages) state).Returns fun moves made _ =>
      ∃ forks failure, Ledger.of moves = { forks } ∧ made.2 = Option.isSome failure ∧
        Staged host bound pipes before after stages forks made.1 failure := by
  induction stages generalizing before after state with
  | nil => exact .pure ⟨[], none, rfl, rfl, .nil⟩
  | cons stage rest ih =>
    rw [spawnStages, Action.fork, Behavior.spawn_bind]
    rcases hf : host.fork state with ⟨errno | pid, state'⟩
    · rw [Action.trace_spawn_error hf]
      exact .after ⟨_, _, rfl, _, some errno, rfl, rfl, .refused state errno⟩
    · have hends := (Child.ofStage_offhand pipes before after.head? stage).loopless.isSome
        host bound state'
      obtain ⟨⟨ending, child⟩, hc⟩ := Option.isSome_iff_exists.1 hends
      rw [Action.trace_spawn_ok hf hc, Behavior.done_bind, Action.trace_bind]
      refine .after (.bind (ih after.head? after.tail _) ?_)
      rintro moves ⟨pids, failed⟩ _ ⟨forks, failure, hl, hb, hs⟩
      exact .pure ⟨_, failure, by simp [Ledger.of_cons, Ledger.entry, hl], hb, .cons hf hs⟩

/-! ## Waiting -/

theorem waitFor_returns (pid : Pid) (state : σ) :
    (trace host bound (waitFor pid) state).Returns fun moves status _ =>
      ∃ reply, Ledger.of moves = { waits := [(pid, reply)] } ∧ status = waitStatus reply := by
  rw [waitFor, Action.trace_call_bind]
  rcases host.answer (.wait pid) state with ⟨errno | status, state'⟩
  · exact .after ⟨_, _, rfl, .error errno, rfl, rfl⟩
  · exact .after (.pure ⟨.ok status, rfl, rfl⟩)

/-- Each child is waited for once, in order, and the last has the say. -/
theorem waitForAll_returns (last : Status) (pids : List Pid) (state : σ) :
    (trace host bound (waitForAll last pids) state).Returns fun moves status _ =>
      ∃ waits, Ledger.of moves = { waits } ∧ waits.map Prod.fst = pids ∧
        status = lastWait waits last := by
  induction pids generalizing last state with
  | nil => exact .pure ⟨[], rfl, rfl, rfl⟩
  | cons pid rest ih =>
    rw [waitForAll, Action.trace_bind]
    refine .bind (waitFor_returns host bound pid state) ?_
    rintro moves status state' ⟨reply, hl, rfl⟩
    refine (ih _ state').mono ?_
    rintro moves' status _ ⟨waits, hl', hw, rfl⟩
    exact ⟨(pid, reply) :: waits, by simp [hl, hl'], by simp [hw],
      (lastWait_cons (pid, reply) waits last).symm⟩

/-! ## The background -/

theorem track_writes (shell : Shell) (pids : List Pid) (state : σ) :
    (trace host bound (track shell pids) state).Writes .output := by
  induction pids generalizing shell state with
  | nil => exact .pure shell state
  | cons pid rest ih =>
    rw [track, Action.trace_bind]
    exact (display_writes host bound _ _ state).bind fun _ state => ih _ state

/-- Once all notices are out, the children are remembered after those that were there. -/
theorem track_value {shell : Shell} {pids : List Pid} {state after : σ} {value : Shell}
    (h : (trace host bound (track shell pids) state).result = some (.returned value, after)) :
    value = { shell with background := shell.background ++ pids } := by
  induction pids generalizing shell state with
  | nil =>
    obtain ⟨rfl, -⟩ : shell = value ∧ state = after := by simpa [track, Run.pure] using h
    simp
  | cons pid rest ih =>
    rw [track, Action.trace_bind] at h
    obtain ⟨_, state', -, hn⟩ := Run.bind_returned h
    simpa using ih hn

variable {host} in
theorem track_ends (h : host.Settles) (shell : Shell) (pids : List Pid) (state : σ) :
    Action.Ends host (track shell pids) state := by
  induction pids generalizing shell state with
  | nil => exact (Action.Loopless.pure shell).ends host state
  | cons pid rest ih =>
    exact (display_ends h.settlesOn _ _ trivial).bind fun _ _ after _ => ih _ after

/-! ## The whole pipeline -/

/-- The course that a pipeline took once it had its pipes. -/
structure Course (σ : Type) where
  pipes : List Pipe
  forks : List (Fork σ)
  /-- The children that were started. -/
  pids : List Pid
  /-- Why a stage could not be started. -/
  failure : Option Errno
  waits : List (Pid × Except Errno Status)

/-- The run took this course: first all pipes, then the children, then all closes, and only then
it waited, if at all. -/
structure Course.Of (course : Course σ) (host : Host σ) (bound : Nat) (shell : Shell)
    (pipeline : Pipeline) (run : Run σ (Status × Shell)) : Prop where
  phases : ∃ piping spawning closing rest,
    run.moves = piping ++ spawning ++ closing ++ rest ∧
      Ledger.of piping = { pipes := course.pipes.map .ok } ∧
      Ledger.of spawning = { forks := course.forks } ∧
      Ledger.of closing = { closed := Pipe.ends course.pipes } ∧
      Ledger.of rest = { waits := course.waits }
  pipes_length : course.pipes.length + 1 = pipeline.length
  staged : Staged host bound course.pipes none course.pipes pipeline.stages course.forks
    course.pids course.failure
  background : pipeline.isBackground → course.failure = none → course.waits = [] ∧
    ∀ ending after, run.result = some (ending, after) →
      ending = .returned (0, { shell with background := shell.background ++ course.pids })
  foreground : ¬(pipeline.isBackground ∧ course.failure = none) →
    course.waits.map Prod.fst = course.pids ∧
      ∃ after, run.result = some (.returned
        (if course.failure = none then lastWait course.waits 0 else -1, shell), after)

/-- What a pipeline does, whatever comes of its calls. -/
structure Orderly (host : Host σ) (bound : Nat) (shell : Shell) (pipeline : Pipeline)
    (run : Run σ (Status × Shell)) : Prop where
  /-- Without stages there is nothing to do. -/
  nothing : pipeline.stages = [] →
    run.moves = [] ∧ ∃ after, run.result = some (.returned (1, shell), after)
  /-- A pipe that is refused ends it all, and the pipes before it are closed. -/
  unpiped : ∀ errno, .error errno ∈ (Ledger.of run.moves).pipes → ∃ pipes,
    Ledger.of run.moves =
      { pipes := pipes.map .ok ++ [.error errno], closed := Pipe.ends pipes } ∧
      ∃ after, run.result = some (.returned (-1, shell), after)
  piped : pipeline.stages ≠ [] → (∀ errno, .error errno ∉ (Ledger.of run.moves).pipes) →
    ∃ course : Course σ, course.Of host bound shell pipeline run

/-- Children, closes, and what is left to do then. -/
theorem trace_runStages (shell : Shell) {pipeline : Pipeline} {pipes : List Pipe}
    {state state₁ state₂ : σ} {spawning closing : List (Move σ)} {made : List Pid × Bool}
    (hs : trace host bound (spawnStages pipes none pipes pipeline.stages) state =
      ⟨spawning, some (.returned made, state₁)⟩)
    (hc : trace host bound (Child.closePipes pipes) state₁ =
      ⟨closing, some (.returned (), state₂)⟩) :
    trace host bound (runStages shell pipeline pipes) state =
      (trace host bound (conclude shell pipeline made.1 made.2) state₂).after
        (spawning ++ closing) := by
  rw [runStages_eq, Action.trace_bind, hs, Run.bind_of_returned rfl, Action.trace_bind, hc,
    Run.bind_of_returned rfl, Run.after_after]

theorem runPipeline_eq {shell : Shell} {pipeline : Pipeline} (h : pipeline.stages ≠ []) :
    runPipeline shell pipeline = (do
      let made ← makePipes (pipeline.length - 1)
      match made.2 with
      | some errno =>
        Action.report .system ("pipe failed: " ++ errno.text)
        Child.closePipes made.1
        return (notStarted, shell)
      | none => runStages shell pipeline made.1) := by
  have : ¬pipeline.stages.isEmpty = true := by simpa using h
  unfold runPipeline
  exact if_neg this

section
variable (shell : Shell) (pipeline : Pipeline)

/-- A pipe was refused: those before it are closed. -/
theorem refuse_returns (pipes : List Pipe) (errno : Errno) (state : σ) :
    (trace host bound (do
      Action.report .system ("pipe failed: " ++ errno.text)
      Child.closePipes pipes
      return (notStarted, shell)) state).Returns fun moves value _ =>
        Ledger.of moves = { closed := Pipe.ends pipes } ∧ value = (-1, shell) := by
  rw [Action.report, Action.trace_call_bind, Action.trace_bind]
  refine .after ((Child.closePipes_returns host bound pipes _).bind fun moves _ state h => ?_)
  exact .pure ⟨by simp [Ledger.of_cons, Ledger.entry, h], rfl⟩

/-- In the background: the notices, and nobody is waited for. -/
theorem conclude_background (pids : List Pid) (hb : pipeline.isBackground) (state : σ) :
    trace host bound (conclude shell pipeline pids false) state =
      (trace host bound (track shell pids) state).bind fun shell state =>
        .pure (0, shell) state := by
  simp only [conclude, hb, Bool.not_false, Bool.and_self, if_true]
  rw [Action.trace_bind]
  rfl

theorem conclude_writes (pids : List Pid) (hb : pipeline.isBackground) (state : σ) :
    (trace host bound (conclude shell pipeline pids false) state).Writes .output := by
  rw [conclude_background host bound shell pipeline pids hb]
  exact (track_writes host bound shell pids state).bind fun _ _ => .pure _ _

theorem conclude_value {pids : List Pid} (hb : pipeline.isBackground) {state after : σ}
    {value : Status × Shell}
    (h : (trace host bound (conclude shell pipeline pids false) state).result =
      some (.returned value, after)) :
    value = (0, { shell with background := shell.background ++ pids }) := by
  rw [conclude_background host bound shell pipeline pids hb] at h
  obtain ⟨shell', state', ht, hv⟩ := Run.bind_returned h
  obtain ⟨rfl, -⟩ : (0, shell') = value ∧ state' = after := by simpa [Run.pure] using hv
  rw [track_value host bound ht]

/-- In the foreground, or after a refusal: all children are waited for. -/
theorem conclude_foreground (pids : List Pid) {failed : Bool}
    (hb : ¬(pipeline.isBackground ∧ failed = false)) (state : σ) :
    (trace host bound (conclude shell pipeline pids failed) state).Returns fun moves value _ =>
      ∃ waits, Ledger.of moves = { waits } ∧ waits.map Prod.fst = pids ∧
        value = (if failed then -1 else lastWait waits 0, shell) := by
  have : (pipeline.isBackground && !failed) = false := by
    cases failed <;> simp_all
  simp only [conclude, this, Bool.false_eq_true, if_false]
  rw [Action.trace_bind]
  refine (waitForAll_returns host bound 0 pids state).bind ?_
  rintro moves status state' ⟨waits, hl, hw, rfl⟩
  exact .pure ⟨waits, by simpa using hl, hw, rfl⟩

/-- Nothing is entered but waits. -/
theorem conclude_ledger (pids : List Pid) (failed : Bool) (state : σ) :
    ∃ waits, Ledger.of (trace host bound (conclude shell pipeline pids failed) state).moves =
      { waits } := by
  by_cases hb : pipeline.isBackground ∧ failed = false
  · obtain ⟨hb, rfl⟩ := hb
    exact ⟨[], (conclude_writes host bound shell pipeline pids hb state).ledger⟩
  · obtain ⟨_, _, _, hr, waits, hl, -⟩ :=
      (conclude_foreground host bound shell pipeline pids hb state).elim
    exact ⟨waits, by rw [hr, hl]⟩

variable {host} in
theorem conclude_ends (h : host.Settles) (pids : List Pid) (failed : Bool) (state : σ) :
    Action.Ends host (conclude shell pipeline pids failed) state := by
  by_cases hb : pipeline.isBackground ∧ failed = false
  · obtain ⟨hb, rfl⟩ := hb
    simp only [conclude, hb, Bool.not_false, Bool.and_self, if_true]
    exact (track_ends h shell pids state).bind fun _ shell' after _ =>
      (Action.Loopless.pure (0, shell')).ends host after
  · exact ⟨0, (conclude_foreground host 0 shell pipeline pids hb state).isSome⟩

/-- With all pipes at hand, a pipeline takes its course. -/
theorem runStages_course {pipes : List Pipe} {piping : List (Move σ)}
    (hl : Ledger.of piping = { pipes := pipes.map .ok })
    (hp : pipes.length + 1 = pipeline.length) (state : σ) :
    ∃ course : Course σ, course.Of host bound shell pipeline
      ((trace host bound (runStages shell pipeline pipes) state).after piping) := by
  obtain ⟨spawning, ⟨pids, failed⟩, state₁, hs, forks, failure, hls, hf, hst⟩ :=
    (spawnStages_returns host bound pipes none pipes pipeline.stages state).elim
  obtain ⟨closing, _, state₂, hc, hlc⟩ := (Child.closePipes_returns host bound pipes state₁).elim
  have hrun := trace_runStages host bound shell hs hc
  by_cases hb : pipeline.isBackground ∧ failed = false
  · obtain ⟨hb, rfl⟩ := hb
    obtain rfl : failure = none := by simpa using hf.symm
    have hw := conclude_writes host bound shell pipeline pids hb state₂
    refine ⟨⟨pipes, forks, pids, none, []⟩, ⟨⟨piping, spawning, closing, _, ?_, hl, hls, hlc,
      hw.ledger⟩, hp, hst, fun _ _ => ⟨rfl, fun ending after hr => ?_⟩,
      fun h => absurd ⟨hb, rfl⟩ h⟩⟩
    · rw [hrun]
      simp
    · rw [hrun, Run.after_result, Run.after_result] at hr
      rcases ending with value | status
      · rw [conclude_value host bound shell pipeline hb hr]
      · exact absurd hr (hw.stays status after)
  · obtain ⟨rest, value, state₃, hr, waits, hlw, hw, rfl⟩ :=
      (conclude_foreground host bound shell pipeline pids hb state₂).elim
    have hfail : failed = false ↔ failure = none := by
      subst hf
      cases failure <;> simp
    refine ⟨⟨pipes, forks, pids, failure, waits⟩, ⟨⟨piping, spawning, closing, rest, ?_, hl, hls,
      hlc, hlw⟩, hp, hst, fun h1 h2 => absurd ⟨h1, hfail.2 h2⟩ hb, fun _ => ⟨hw, state₃, ?_⟩⟩⟩
    · rw [hrun, hr]
      simp
    · rw [hrun, hr]
      cases failure <;> simp_all

end

/-- Whatever comes of its calls, a pipeline is orderly. -/
theorem trace_runPipeline_orderly (shell : Shell) (pipeline : Pipeline) (state : σ) :
    Orderly host bound shell pipeline (trace host bound (runPipeline shell pipeline) state) := by
  by_cases hne : pipeline.stages = []
  · have hrun : trace host bound (runPipeline shell pipeline) state = .pure (1, shell) state := by
      simp [runPipeline, hne, nothingToRun]
    rw [hrun]
    exact ⟨fun _ => ⟨rfl, state, rfl⟩, by simp [Run.pure], fun h => absurd hne h⟩
  rw [runPipeline_eq hne, Action.trace_bind]
  obtain ⟨piping, ⟨pipes, failure⟩, state₁, hm, hl, hlen⟩ :=
    (makePipes_returns host bound (pipeline.length - 1) state).elim
  rw [hm, Run.bind_of_returned rfl]
  rcases failure with _ | errno
  · have hlen : pipes.length + 1 = pipeline.length := by
      have : 0 < pipeline.length := List.length_pos_iff.2 hne
      have := hlen rfl
      simp only at this
      omega
    obtain ⟨course, hc⟩ :=
      runStages_course host bound shell pipeline (by simpa using hl) hlen state₁
    refine ⟨fun h => absurd h hne, fun errno he => ?_, fun _ _ => ⟨course, hc⟩⟩
    obtain ⟨piping, spawning, closing, rest, hmoves, h1, h2, h3, h4⟩ := hc.phases
    rw [hmoves] at he
    simp [h1, h2, h3, h4] at he
  · obtain ⟨closing, value, state₂, hc, hlc, rfl⟩ :=
      (refuse_returns host bound shell pipes errno state₁).elim
    refine ⟨fun h => absurd h hne, fun other ho => ?_, fun _ h => ?_⟩
    · simp only [hc, Run.after_moves, Run.after_result, Ledger.of_append, hl, hlc] at ho ⊢
      obtain rfl : other = errno := by simpa using ho
      exact ⟨pipes, by simp, state₂, rfl⟩
    · refine absurd ?_ (h errno)
      simp [hl]

/-- Only a notice can keep the shell, and not if writes settle. -/
theorem runPipeline_ends {host : Host σ} (h : host.Settles) (shell : Shell) (pipeline : Pipeline)
    (state : σ) : Action.Ends host (runPipeline shell pipeline) state := by
  by_cases hne : pipeline.stages = []
  · exact ⟨0, by simp [runPipeline, hne, Run.pure]⟩
  rw [runPipeline_eq hne]
  refine .bind ⟨0, (makePipes_returns host 0 _ state).isSome⟩ fun _ made state₁ _ => ?_
  obtain ⟨pipes, failure⟩ := made
  rcases failure with _ | errno
  · refine .bind ⟨0, (spawnStages_returns host 0 ..).isSome⟩ fun _ made state₂ _ => ?_
    refine .bind ⟨0, (Child.closePipes_returns host 0 pipes state₂).isSome⟩ fun _ _ state₃ _ => ?_
    exact conclude_ends shell pipeline h made.1 made.2 state₃
  · exact ⟨0, (refuse_returns host 0 shell pipes errno state₁).isSome⟩

/-- A pipeline is orderly under every bound, and it ends as long as no write is interrupted for
ever. -/
theorem runPipeline_orderly (host : Host σ) (shell : Shell) (pipeline : Pipeline) (state : σ) :
    (∀ bound, Orderly host bound shell pipeline
      (trace host bound (runPipeline shell pipeline) state)) ∧
    (host.Settles → ∃ least, ∀ bound, least ≤ bound →
      (Action.run host bound (runPipeline shell pipeline) state).isSome) := by
  refine ⟨fun bound => trace_runPipeline_orderly host bound shell pipeline state, fun h => ?_⟩
  obtain ⟨least, hl⟩ := (runPipeline_ends h shell pipeline state).eventually
  exact ⟨least, fun bound hb => by rw [← Action.trace_result]; exact hl bound hb⟩

/-- Three stages in the background, in a rehearsal that grants every call. -/
theorem runPipeline_orderly_rehearsal :
    let pipeline : Pipeline := ⟨[⟨["cat"], {}, ∅, false⟩, ⟨[], {}, ∅, false⟩,
      ⟨["wc", "-l"], {}, ∅, true⟩], ∅⟩
    Recorder.host.Settles ∧ ∃ least, ∀ bound, least ≤ bound →
      (Action.run Recorder.host bound (runPipeline {} pipeline) {}).isSome ∧
      Orderly Recorder.host bound {} pipeline
        (trace Recorder.host bound (runPipeline {} pipeline) {}) := by
  intro pipeline
  have hs : Recorder.host.Settles := fun _ _ _ => .here (by simp [Recorder.host, Recorder.answer])
  obtain ⟨ho, he⟩ := runPipeline_orderly Recorder.host {} pipeline {}
  obtain ⟨least, hl⟩ := he hs
  exact ⟨hs, least, fun bound hb => ⟨hl bound hb, ho bound⟩⟩

end Job

end TinyShell
