import TinyShell.Action.Host

/-!
# Traces

`Action.trace` is `Action.run` with a record of what was done: the calls in order, each with the
state that it was made in and what came of it, and those of a child inside the call that started
it. A run that goes beyond the bound of a loop has a trace too, that of all it did until then, so
statements about traces also cover runs that never end.

* `trace_result`: the trace ends as the run does.
* `trace_bind`: the trace of a sequence is that of its parts, one after the other.
* `trace_mono`: a trace that ended is the same under every larger bound, so it makes sense to say
  that an action ends (`Ends`).
* `Run.Rules.loop`: what passes from runs to their sequence passes from the rounds of a loop to it.
-/

namespace TinyShell

/-- A call that a process made. -/
inductive Move (σ : Type) where
  | asked (before : σ) (request : Request) (reply : request.Reply)
  | executed (before : σ) (program : String) (argv : List String) (result : Except Errno Status)
  /-- A child was started, and made the moves of `child`. -/
  | forked (before : σ) (result : Except Errno Pid) (child : List (Move σ))

/-- What an action did, and how it ended; it has no result if a loop reached its bound. -/
structure Run (σ α : Type) where
  moves : List (Move σ)
  result : Option (Ending α × σ)

namespace Run

variable {σ α β γ : Type}

/-- The run of an action that makes no call. -/
def pure (value : α) (state : σ) : Run σ α := ⟨[], some (.returned value, state)⟩

/-- The run with moves that came before it. -/
def after (run : Run σ α) (earlier : List (Move σ)) : Run σ α := ⟨earlier ++ run.moves, run.result⟩

/-- A run, and then the one that its value and state choose. -/
def bind (run : Run σ α) (next : α → σ → Run σ β) : Run σ β :=
  match run.result with
  | none => ⟨run.moves, none⟩
  | some (.exited status, state) => ⟨run.moves, some (.exited status, state)⟩
  | some (.returned value, state) => (next value state).after run.moves

/-- A sequence that returned had two parts that did. -/
theorem bind_returned {run : Run σ α} {next : α → σ → Run σ β} {value : β} {state : σ}
    (h : (run.bind next).result = some (.returned value, state)) :
    ∃ first between, run.result = some (.returned first, between) ∧
      (next first between).result = some (.returned value, state) := by
  obtain ⟨moves, result⟩ := run
  rcases result with _ | ⟨first | status, between⟩
  · simp [bind] at h
  · exact ⟨first, between, rfl, h⟩
  · simp [bind] at h

/-- Runs that agree as far as they end have sequels that agree as far as they end. -/
theorem bind_congr {run run' : Run σ α} {next next' : α → σ → Run σ β}
    (h : (run.bind next).result.isSome) (hr : run.result.isSome → run' = run)
    (hn : ∀ value state, (next value state).result.isSome →
      next' value state = next value state) : run'.bind next' = run.bind next := by
  obtain ⟨moves, result⟩ := run
  rcases result with _ | ⟨value | status, state⟩
  · simp [bind] at h
  · rw [hr rfl]
    exact congrArg (after · moves) (hn value state h)
  · rw [hr rfl]
    rfl

/-- The run returned, with moves, a value and a state as `post` says. -/
def Returns (run : Run σ α) (post : List (Move σ) → α → σ → Prop) : Prop :=
  ∃ value state, run.result = some (.returned value, state) ∧ post run.moves value state

@[simp]
theorem after_moves (run : Run σ α) (earlier : List (Move σ)) :
    (run.after earlier).moves = earlier ++ run.moves := rfl

@[simp]
theorem after_result (run : Run σ α) (earlier : List (Move σ)) :
    (run.after earlier).result = run.result := rfl

@[simp]
theorem after_nil (run : Run σ α) : run.after [] = run := rfl

@[simp]
theorem after_after (run : Run σ α) (first second : List (Move σ)) :
    (run.after second).after first = run.after (first ++ second) := by
  simp [after]

@[simp]
theorem pure_bind (value : α) (state : σ) (next : α → σ → Run σ β) :
    (pure value state).bind next = next value state := rfl

@[simp]
theorem bind_pure (run : Run σ α) : run.bind pure = run := by
  obtain ⟨moves, result⟩ := run
  rcases result with _ | ⟨_ | _, state⟩ <;> simp [bind, after, pure]

theorem after_bind (run : Run σ α) (earlier : List (Move σ)) (next : α → σ → Run σ β) :
    (run.after earlier).bind next = (run.bind next).after earlier := by
  obtain ⟨moves, result⟩ := run
  rcases result with _ | ⟨_ | _, state⟩ <;> simp [bind, after]

theorem bind_assoc (run : Run σ α) (f : α → σ → Run σ β) (g : β → σ → Run σ γ) :
    (run.bind f).bind g = run.bind fun value state => (f value state).bind g := by
  obtain ⟨moves, result⟩ := run
  rcases result with _ | ⟨value | status, state⟩
  · rfl
  · exact after_bind (f value state) moves g
  · rfl

/-- After a run that returned, its sequel is all that is left. -/
theorem bind_of_returned {run : Run σ α} {value : α} {state : σ}
    (h : run.result = some (.returned value, state)) (next : α → σ → Run σ β) :
    run.bind next = (next value state).after run.moves := by
  simp [bind, h]

theorem bind_of_exited {run : Run σ α} {status : Status} {state : σ}
    (h : run.result = some (.exited status, state)) (next : α → σ → Run σ β) :
    run.bind next = ⟨run.moves, some (.exited status, state)⟩ := by
  simp [bind, h]

theorem bind_of_none {run : Run σ α} (h : run.result = none) (next : α → σ → Run σ β) :
    run.bind next = ⟨run.moves, none⟩ := by
  simp [bind, h]

/-- What comes later adds to the moves. -/
theorem moves_bind (run : Run σ α) (next : α → σ → Run σ β) :
    ∃ more, (run.bind next).moves = run.moves ++ more := by
  obtain ⟨moves, _ | ⟨value | status, state⟩⟩ := run
  · exact ⟨[], (List.append_nil _).symm⟩
  · exact ⟨_, rfl⟩
  · exact ⟨[], (List.append_nil _).symm⟩

namespace Returns

variable {run : Run σ α} {post post' : List (Move σ) → α → σ → Prop}

theorem pure {value : α} {state : σ} (h : post [] value state) :
    (Run.pure value state).Returns post := ⟨value, state, rfl, h⟩

theorem mono (h : run.Returns post) (hp : ∀ moves value state, post moves value state →
    post' moves value state) : run.Returns post' := by
  obtain ⟨value, state, hr, hv⟩ := h
  exact ⟨value, state, hr, hp _ _ _ hv⟩

theorem after {earlier : List (Move σ)}
    (h : run.Returns fun moves value state => post (earlier ++ moves) value state) :
    (run.after earlier).Returns post := h

theorem bind {next : α → σ → Run σ β} {post' : List (Move σ) → β → σ → Prop}
    (h : run.Returns post)
    (k : ∀ moves value state, post moves value state →
      (next value state).Returns fun moves' => post' (moves ++ moves')) :
    (run.bind next).Returns post' := by
  obtain ⟨value, state, hr, hv⟩ := h
  rw [bind_of_returned hr]
  exact k _ _ _ hv

theorem and (h : run.Returns post) (h' : run.Returns post') :
    run.Returns fun moves value state => post moves value state ∧ post' moves value state := by
  obtain ⟨value, state, hr, hv⟩ := h
  obtain ⟨value', state', hr', hv'⟩ := h'
  obtain ⟨rfl, rfl⟩ : value = value' ∧ state = state' := by simpa [hr] using hr'
  exact ⟨value, state, hr, hv, hv'⟩

/-- A run that returned, in full. -/
theorem elim (h : run.Returns post) :
    ∃ moves value state, run = ⟨moves, some (.returned value, state)⟩ ∧ post moves value state := by
  obtain ⟨value, state, hr, hv⟩ := h
  exact ⟨run.moves, value, state, by rw [← hr], hv⟩

theorem isSome (h : run.Returns post) : run.result.isSome := by
  obtain ⟨value, state, hr, -⟩ := h
  simp [hr]

end Returns

end Run

namespace Action

variable {σ τ α β : Type}

/-- At most `bound` rounds of `step`, with their moves. -/
def traceRounds (step : τ → σ → Run σ (τ ⊕ β)) : (bound : Nat) → τ → σ → Run σ β
  | 0, _, _ => ⟨[], none⟩
  | bound + 1, start, state =>
    (step start state).bind fun
      | .inl next, state => traceRounds step bound next state
      | .inr value, state => .pure value state

/-- The run of an action with its moves. -/
def trace {σ α : Type} (host : Host σ) (bound : Nat) : Action α → σ → Run σ α
  | .done value, state => .pure value state
  | .exit status, state => ⟨[], some (.exited status, state)⟩
  | .ask request next, state =>
    let (reply, state') := host.answer request state
    (trace host bound (next reply) state').after [.asked state request reply]
  | .exec program argv next, state =>
    match host.exec program argv state with
    | (.ok status, state') =>
      ⟨[.executed state program argv (.ok status)], some (.exited status, state')⟩
    | (.error errno, state') =>
      (trace host bound (next errno) state').after [.executed state program argv (.error errno)]
  | .spawn child next, state =>
    match host.fork state with
    | (.error errno, state') =>
      (trace host bound (next (.error errno)) state').after [.forked state (.error errno) []]
    | (.ok pid, state') =>
      let run := trace host bound child state'
      match run.result with
      | none => ⟨[.forked state (.ok pid) run.moves], none⟩
      | some (ending, child) =>
        (trace host bound (next (.ok pid)) (host.join state' child pid ending.status)).after
          [.forked state (.ok pid) run.moves]
  | .note text next, state => trace host bound next (host.note text state)
  | .loop body start next, state =>
    (traceRounds (fun start state => trace host bound (body start) state) bound start state).bind
      fun value state => trace host bound (next value) state

section
variable (host : Host σ) (bound : Nat) (state : σ)

@[simp]
theorem trace_pure (value : α) : trace host bound (pure value) state = .pure value state := rfl

@[simp]
theorem trace_done (value : α) : trace host bound (.done value) state = .pure value state := rfl

theorem trace_ask (request : Request) (next : request.Reply → Action α) :
    trace host bound (.ask request next) state =
      (trace host bound (next (host.answer request state).1) (host.answer request state).2).after
        [.asked state request (host.answer request state).1] := rfl

variable {host bound state} in
theorem trace_exec_ok {program : String} {argv : List String} {next : Errno → Action α}
    {status : Status} {state' : σ} (h : host.exec program argv state = (.ok status, state')) :
    trace host bound (.exec program argv next) state =
      ⟨[.executed state program argv (.ok status)], some (.exited status, state')⟩ := by
  simp [trace, h]

variable {host bound state} in
theorem trace_exec_error {program : String} {argv : List String} {next : Errno → Action α}
    {errno : Errno} {state' : σ} (h : host.exec program argv state = (.error errno, state')) :
    trace host bound (.exec program argv next) state =
      (trace host bound (next errno) state').after
        [.executed state program argv (.error errno)] := by
  simp [trace, h]

variable {host bound state} in
theorem trace_spawn_error {child : Action Status} {next : Except Errno Pid → Action α}
    {errno : Errno} {state' : σ} (h : host.fork state = (.error errno, state')) :
    trace host bound (.spawn child next) state =
      (trace host bound (next (.error errno)) state').after
        [.forked state (.error errno) []] := by
  simp [trace, h]

variable {host bound state} in
/-- A child that ends, after which its parent goes on. -/
theorem trace_spawn_ok {child : Action Status} {next : Except Errno Pid → Action α} {pid : Pid}
    {state' after : σ} {ending : Ending Status} (h : host.fork state = (.ok pid, state'))
    (hc : (trace host bound child state').result = some (ending, after)) :
    trace host bound (.spawn child next) state =
      (trace host bound (next (.ok pid)) (host.join state' after pid ending.status)).after
        [.forked state (.ok pid) (trace host bound child state').moves] := by
  simp [trace, h, hc]

variable {host bound state} in
/-- A child that goes on beyond a bound. -/
theorem trace_spawn_none {child : Action Status} {next : Except Errno Pid → Action α} {pid : Pid}
    {state' : σ} (h : host.fork state = (.ok pid, state'))
    (hc : (trace host bound child state').result = none) :
    trace host bound (.spawn child next) state =
      ⟨[.forked state (.ok pid) (trace host bound child state').moves], none⟩ := by
  simp [trace, h, hc]

@[simp]
theorem trace_note (text : String) (next : Action α) :
    trace host bound (.note text next) state = trace host bound next (host.note text state) := rfl

theorem trace_loop {γ : Type} (body : τ → Action (τ ⊕ γ)) (start : τ) (next : γ → Action α) :
    trace host bound (.loop body start next) state =
      (traceRounds (fun start state => trace host bound (body start) state) bound start state).bind
        fun value state => trace host bound (next value) state := rfl

theorem trace_iterate (body : τ → Action (τ ⊕ β)) (start : τ) :
    trace host bound (iterate body start) state =
      traceRounds (fun start state => trace host bound (body start) state) bound start state :=
  Run.bind_pure _

/-- First one action, then the next: so it is in the trace. -/
theorem trace_bind (action : Action α) (next : α → Action β) :
    trace host bound (action >>= next) state =
      (trace host bound action state).bind fun value state =>
        trace host bound (next value) state := by
  induction action generalizing state with
  | done value => rfl
  | exit status => rfl
  | ask request cont ih =>
    rw [Behavior.ask_bind, trace_ask, trace_ask, Run.after_bind, ih]
  | exec program argv cont ih =>
    rw [Behavior.exec_bind]
    rcases he : host.exec program argv state with ⟨errno | status, state'⟩
    · rw [trace_exec_error he, trace_exec_error he, Run.after_bind, ih]
    · rw [trace_exec_ok he, trace_exec_ok he]
      rfl
  | spawn child cont _ ih =>
    rw [Behavior.spawn_bind]
    rcases hf : host.fork state with ⟨errno | pid, state'⟩
    · rw [trace_spawn_error hf, trace_spawn_error hf, Run.after_bind, ih]
    · rcases hc : (trace host bound child state').result with _ | ⟨ending, after⟩
      · rw [trace_spawn_none hf hc, trace_spawn_none hf hc]
        rfl
      · rw [trace_spawn_ok hf hc, trace_spawn_ok hf hc, Run.after_bind, ih]
  | note text cont ih => exact ih (host.note text state) next
  | loop body start cont _ ih =>
    rw [Behavior.loop_bind, trace_loop, trace_loop, Run.bind_assoc]
    congr 1
    funext value state
    exact ih value state next

theorem trace_call_bind (request : Request) (next : request.Reply → Action α) :
    trace host bound (call request >>= next) state =
      (trace host bound (next (host.answer request state).1) (host.answer request state).2).after
        [.asked state request (host.answer request state).1] := rfl

theorem trace_report (level : Level) (message : String) :
    trace host bound (report level message) state =
      ⟨[.asked state (.report level message) ()],
        some (.returned (), (host.answer (.report level message) state).2)⟩ := rfl

end

/-! ## Agreement with runs -/

theorem traceRounds_result (step : τ → σ → Run σ (τ ⊕ β)) (bound : Nat) (start : τ) (state : σ) :
    (traceRounds step bound start state).result =
      rounds (fun start state => (step start state).result) bound start state := by
  induction bound generalizing start state with
  | zero => rfl
  | succ bound ih =>
    rw [traceRounds, rounds, Run.bind]
    rcases (step start state).result with _ | ⟨(next | value) | status, after⟩
    · rfl
    · exact ih next after
    · rfl
    · rfl

/-- The trace ends as the run does. -/
theorem trace_result (host : Host σ) (bound : Nat) (action : Action α) (state : σ) :
    (trace host bound action state).result = run host bound action state := by
  induction action generalizing state with
  | done value => rfl
  | exit status => rfl
  | ask request next ih => exact ih _ _
  | exec program argv next ih =>
    simp only [trace, run]
    rcases host.exec program argv state with ⟨errno | status, state'⟩
    · exact ih errno state'
    · rfl
  | spawn child next ihc ih =>
    simp only [trace, run]
    rcases host.fork state with ⟨errno | pid, state'⟩
    · exact ih _ state'
    · simp only [← ihc]
      rcases (trace host bound child state').result with _ | ⟨ending, child⟩
      · rfl
      · exact ih _ _
  | note text next ih => exact ih _
  | loop body start next ihb ih =>
    simp only [trace, run, Run.bind]
    rw [traceRounds_result]
    simp only [ihb]
    rcases rounds (fun start state => run host bound (body start) state) bound start state with
      _ | ⟨value | status, state'⟩
    · rfl
    · exact ih value state'
    · rfl

/-! ## Larger bounds -/

theorem traceRounds_mono {step step' : τ → σ → Run σ (τ ⊕ β)}
    (hs : ∀ start state, (step start state).result.isSome → step' start state = step start state)
    {bound bound' : Nat} (hb : bound ≤ bound') {start : τ} {state : σ}
    (h : (traceRounds step bound start state).result.isSome) :
    traceRounds step' bound' start state = traceRounds step bound start state := by
  induction bound generalizing bound' start state with
  | zero => simp [traceRounds] at h
  | succ bound ih =>
    obtain ⟨more, rfl⟩ : ∃ more, bound' = more + 1 := ⟨bound' - 1, by omega⟩
    refine Run.bind_congr h (hs start state) fun value after ha => ?_
    rcases value with next | value
    · exact ih (by omega) ha
    · rfl

/-- A trace that ended under a bound is the same under every larger one. -/
theorem trace_mono {host : Host σ} {bound bound' : Nat} (hb : bound ≤ bound') {action : Action α}
    {state : σ} (h : (trace host bound action state).result.isSome) :
    trace host bound' action state = trace host bound action state := by
  induction action generalizing state with
  | done value => rfl
  | exit status => rfl
  | ask request next ih => exact congrArg (Run.after · _) (ih _ h)
  | exec program argv next ih =>
    rcases he : host.exec program argv state with ⟨errno | status, state'⟩
    · rw [trace_exec_error he] at h ⊢
      rw [trace_exec_error he, ih errno h]
    · rw [trace_exec_ok he, trace_exec_ok he]
  | spawn child next ihc ih =>
    rcases hf : host.fork state with ⟨errno | pid, state'⟩
    · rw [trace_spawn_error hf] at h ⊢
      rw [trace_spawn_error hf, ih _ h]
    · rcases hc : (trace host bound child state').result with _ | ⟨ending, after⟩
      · simp [trace_spawn_none hf hc] at h
      · have hsame := @ihc state' (by simp [hc])
        rw [trace_spawn_ok hf hc] at h ⊢
        rw [trace_spawn_ok hf (hsame ▸ hc), ih _ h, hsame]
  | note text next ih => exact ih h
  | loop body start next ihb ih =>
    rw [trace_loop] at h ⊢
    rw [trace_loop]
    refine Run.bind_congr h (fun hr => ?_) fun value state => ih value
    exact traceRounds_mono (fun start state => ihb start) hb hr

/-- The action ends from this state, under some bound and so under every larger one. -/
def Ends (host : Host σ) (action : Action α) (state : σ) : Prop :=
  ∃ bound, (trace host bound action state).result.isSome

namespace Ends

variable {host : Host σ} {action : Action α} {state : σ}

theorem eventually (h : Ends host action state) :
    ∃ least, ∀ bound, least ≤ bound → (trace host bound action state).result.isSome := by
  obtain ⟨least, hl⟩ := h
  exact ⟨least, fun bound hb => by rwa [trace_mono hb hl]⟩

theorem bind {next : α → Action β} (h : Ends host action state)
    (hn : ∀ bound value after,
      (trace host bound action state).result = some (.returned value, after) →
        Ends host (next value) after) : Ends host (action >>= next) state := by
  obtain ⟨first, hf⟩ := h
  obtain ⟨⟨ending, after⟩, hr⟩ := Option.isSome_iff_exists.1 hf
  rcases ending with value | status
  · obtain ⟨second, hs⟩ := hn first value after hr
    refine ⟨max first second, ?_⟩
    have hsame := trace_mono (Nat.le_max_left first second) hf
    rw [trace_bind, hsame, Run.bind_of_returned hr, Run.after_result]
    rwa [trace_mono (Nat.le_max_right first second) hs]
  · refine ⟨first, ?_⟩
    rw [trace_bind, Run.bind_of_exited hr]
    rfl

end Ends

/-! ## Actions without loops -/

/-- No bound applies: the action has no loop, and neither have its children. -/
inductive Loopless : {α : Type} → Action α → Prop
  | done {α : Type} (value : α) : Loopless (.done value)
  | exit {α : Type} (status : Status) : Loopless (.exit status : Action α)
  | ask {α : Type} {request : Request} {next : request.Reply → Action α} :
    (∀ reply, Loopless (next reply)) → Loopless (.ask request next)
  | exec {α : Type} {program : String} {argv : List String} {next : Errno → Action α} :
    (∀ errno, Loopless (next errno)) → Loopless (.exec program argv next)
  | spawn {α : Type} {child : Action Status} {next : Except Errno Pid → Action α} :
    Loopless child → (∀ pid, Loopless (next pid)) → Loopless (.spawn child next)
  | note {α : Type} {text : String} {next : Action α} : Loopless next → Loopless (.note text next)

namespace Loopless

theorem pure (value : α) : Loopless (pure value) := .done value

/-- It always ends. -/
theorem isSome {action : Action α} (h : Loopless action) (host : Host σ) (bound : Nat)
    (state : σ) : (trace host bound action state).result.isSome := by
  induction h generalizing state with
  | done | exit => rfl
  | ask _ ih => exact ih _ _
  | @exec _ program argv _ _ ih =>
    rcases he : host.exec program argv state with ⟨errno | status, state'⟩
    · rw [trace_exec_error he]
      exact ih errno state'
    · rw [trace_exec_ok he]
      rfl
  | spawn _ _ ihc ih =>
    rcases hf : host.fork state with ⟨errno | pid, state'⟩
    · rw [trace_spawn_error hf]
      exact ih _ _
    · obtain ⟨⟨ending, after⟩, hc⟩ := Option.isSome_iff_exists.1 (ihc state')
      rw [trace_spawn_ok hf hc]
      exact ih _ _
  | note _ ih => exact ih _

theorem ends {action : Action α} (h : Loopless action) (host : Host σ) (state : σ) :
    Ends host action state := ⟨0, h.isSome host 0 state⟩

end Loopless

end Action

/-! ## Rules for runs -/

variable {σ τ α β : Type}

/-- A property of runs, and of the states that they start in, passes from the parts of a run to the
whole, and holds of one that is cut off at once. -/
structure Run.Rules (holds : {α : Type} → σ → Run σ α → Prop) : Prop where
  cut {α : Type} (state : σ) : holds state (⟨[], none⟩ : Run σ α)
  pure {α : Type} (value : α) (state : σ) : holds state (Run.pure value state)
  bind {α β : Type} {run : Run σ α} {next : α → σ → Run σ β} {state : σ} : holds state run →
    (∀ value last, holds last (next value last)) → holds state (run.bind next)

namespace Run.Rules

variable {holds : {α : Type} → σ → Run σ α → Prop}

/-- Such a property passes from each round to all of them, whatever the bound. -/
theorem rounds (h : Rules holds) {step : τ → σ → Run σ (τ ⊕ β)}
    (hs : ∀ start state, holds state (step start state)) (bound : Nat) (start : τ) (state : σ) :
    holds state (Action.traceRounds step bound start state) := by
  induction bound generalizing start state with
  | zero => exact h.cut state
  | succ bound ih =>
    refine h.bind (hs start state) fun value last => ?_
    rcases value with next | value
    · exact ih next last
    · exact h.pure value last

/-- And so to a loop with what follows it. -/
theorem loop (h : Rules holds) {host : Host σ} {bound : Nat} {body : τ → Action (τ ⊕ β)}
    {next : β → Action α}
    (hb : ∀ start state, holds state (Action.trace host bound (body start) state))
    (hn : ∀ value state, holds state (Action.trace host bound (next value) state)) (start : τ)
    (state : σ) : holds state (Action.trace host bound (.loop body start next) state) :=
  h.bind (h.rounds hb bound start state) hn

end Run.Rules

end TinyShell
