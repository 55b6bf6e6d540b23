import TinyShell.Proofs.Action.Trace

/-!
# Ends, and actions that end alike

`Action.ComesTo` says where an action ends, whatever the bound on its loops is, as long as it is
large enough. `Action.Alike` compares two actions in two states: both end, and in the same way.
There is one rule for each way of putting actions together, so a comparison follows the text of what
it compares.
-/

namespace TinyShell

namespace Action

variable {σ τ α β γ δ : Type} {host : Host σ}

/-! ## Ends -/

theorem run_mono {bound bound' : Nat} (hb : bound ≤ bound') {action : Action α} {state : σ}
    {result : Ending α × σ} (h : run host bound action state = some result) :
    run host bound' action state = some result := by
  rw [← trace_result] at h ⊢
  rw [trace_mono hb (by rw [h]; rfl), h]

/-- From this state the action comes to this end, under every bound that is large enough. -/
def ComesTo (host : Host σ) (action : Action α) (state : σ) (ending : Ending α) (after : σ) :
    Prop :=
  ∃ least, ∀ bound, least ≤ bound → run host bound action state = some (ending, after)

theorem run_bind (bound : Nat) (action : Action α) (next : α → Action β) (state : σ) :
    run host bound (action >>= next) state =
      match run host bound action state with
      | none => none
      | some (.exited status, after) => some (.exited status, after)
      | some (.returned value, after) => run host bound (next value) after := by
  simp only [← trace_result, trace_bind, Run.bind]
  rcases (trace host bound action state).result with _ | ⟨value | status, after⟩ <;> rfl

/-- A loop alone is its rounds. -/
theorem run_iterate (bound : Nat) (body : τ → Action (τ ⊕ β)) (start : τ) (state : σ) :
    run host bound (iterate body start) state =
      rounds (fun start state => run host bound (body start) state) bound start state := by
  simp only [iterate, Behavior.iterate, run]
  rcases rounds (fun start state => run host bound (body start) state) bound start state with
    _ | ⟨value | status, after⟩ <;> rfl

theorem rounds_mono {step step' : τ → σ → Option (Ending (τ ⊕ β) × σ)}
    (hs : ∀ start state result, step start state = some result → step' start state = some result)
    {bound : Nat} {start : τ} {state : σ} {result : Ending β × σ}
    (h : rounds step bound start state = some result) :
    rounds step' bound start state = some result := by
  induction bound generalizing start state with
  | zero => cases h
  | succ bound ih =>
    rw [rounds] at h ⊢
    rcases hstep : step start state with _ | ⟨(next | value) | status, after⟩
    · rw [hstep] at h
      cases h
    · rw [hstep] at h
      rw [hs _ _ _ hstep]
      exact ih h
    · rw [hstep] at h
      rw [hs _ _ _ hstep]
      exact h
    · rw [hstep] at h
      rw [hs _ _ _ hstep]
      exact h

namespace ComesTo

variable {action : Action α} {state between after : σ} {value : α}

theorem of_run (bound : Nat) {ending : Ending α}
    (h : run host bound action state = some (ending, after)) :
    ComesTo host action state ending after := ⟨bound, fun _ hb => run_mono hb h⟩

theorem pure (value : α) (state : σ) :
    ComesTo host (pure value) state (.returned value) state := ⟨0, fun _ _ => rfl⟩

theorem bind {next : α → Action β} {ending : Ending β}
    (h : ComesTo host action state (.returned value) between)
    (hn : ComesTo host (next value) between ending after) :
    ComesTo host (action >>= next) state ending after := by
  obtain ⟨first, hf⟩ := h
  obtain ⟨second, hs⟩ := hn
  refine ⟨max first second, fun bound hb => ?_⟩
  rw [run_bind, hf bound (by omega)]
  exact hs bound (by omega)

theorem bind_exited {next : α → Action β} {status : Status}
    (h : ComesTo host action state (.exited status) after) :
    ComesTo host (action >>= next) state (.exited status) after := by
  obtain ⟨least, hl⟩ := h
  refine ⟨least, fun bound hb => ?_⟩
  rw [run_bind, hl bound hb]

theorem exit (status : Status) (state : σ) :
    ComesTo host (.exit status : Action α) state (.exited status) state := ⟨0, fun _ _ => rfl⟩

theorem call {request : Request} {reply : request.Reply}
    (h : host.answer request state = (reply, after)) :
    ComesTo host (call request) state (.returned reply) after :=
  ⟨0, fun _ _ => by simp [Action.call, run, h]⟩

theorem ask {request : Request} {next : request.Reply → Action α} {ending : Ending α}
    (h : ComesTo host (next (host.answer request state).1) (host.answer request state).2 ending
      after) : ComesTo host (.ask request next) state ending after := h

theorem note {text : String} {next : Action α} {ending : Ending α}
    (h : ComesTo host next (host.note text state) ending after) :
    ComesTo host (.note text next) state ending after := h

theorem log (text : String) (state : σ) :
    ComesTo host (log text) state (.returned ()) (host.note text state) := ⟨0, fun _ _ => rfl⟩

theorem exec_ok {program : String} {argv : List String} {next : Errno → Action α}
    {status : Status} (h : host.exec program argv state = (.ok status, after)) :
    ComesTo host (.exec program argv next) state (.exited status) after :=
  ⟨0, fun _ _ => by simp [run, h]⟩

theorem exec_error {program : String} {argv : List String} {next : Errno → Action α}
    {errno : Errno} {ending : Ending α}
    (h : host.exec program argv state = (.error errno, between))
    (hn : ComesTo host (next errno) between ending after) :
    ComesTo host (.exec program argv next) state ending after := by
  obtain ⟨least, hl⟩ := hn
  exact ⟨least, fun bound hb => by simpa [run, h] using hl bound hb⟩

theorem spawn_error {child : Action Status} {next : Except Errno Pid → Action α} {errno : Errno}
    {ending : Ending α} (h : host.fork state = (.error errno, between))
    (hn : ComesTo host (next (.error errno)) between ending after) :
    ComesTo host (.spawn child next) state ending after := by
  obtain ⟨least, hl⟩ := hn
  exact ⟨least, fun bound hb => by simpa [run, h] using hl bound hb⟩

/-- A child comes to its end, and its parent goes on. -/
theorem spawn_ok {child : Action Status} {next : Except Errno Pid → Action α} {pid : Pid}
    {born gone : σ} {status : Ending Status} {ending : Ending α}
    (h : host.fork state = (.ok pid, born)) (hc : ComesTo host child born status gone)
    (hn : ComesTo host (next (.ok pid)) (host.join born gone pid status.status) ending after) :
    ComesTo host (.spawn child next) state ending after := by
  obtain ⟨first, hf⟩ := hc
  obtain ⟨second, hs⟩ := hn
  refine ⟨max first second, fun bound hb => ?_⟩
  simp only [run, h, hf bound (by omega)]
  exact hs bound (by omega)

/-! ### Loops -/

variable {body : τ → Action (τ ⊕ β)} {start : τ}

/-- A loop is its first round, and then the loop from where that led. -/
theorem iterate {ending : Ending β}
    (h : ComesTo host (body start >>= Sum.elim (Action.iterate body) Pure.pure) state ending
      after) : ComesTo host (Action.iterate body start) state ending after := by
  obtain ⟨least, hl⟩ := h
  have hround := hl least (Nat.le_refl least)
  refine of_run (least + 1) ?_
  rw [run_bind] at hround
  rw [run_iterate, rounds]
  rcases hb : run host least (body start) state with _ | ⟨(next | value) | status, between⟩
  · rw [hb] at hround
    cases hround
  · rw [hb] at hround
    rw [run_mono (Nat.le_succ least) hb]
    simp only [Sum.elim_inl, run_iterate] at hround
    -- the rounds that are left have one more for each of their own loops
    exact rounds_mono (fun _ _ _ => run_mono (Nat.le_succ least)) hround
  · rw [hb] at hround
    rw [run_mono (Nat.le_succ least) hb]
    exact hround
  · rw [hb] at hround
    rw [run_mono (Nat.le_succ least) hb]
    exact hround

theorem iterate_last {result : β}
    (h : ComesTo host (body start) state (.returned (.inr result)) after) :
    ComesTo host (Action.iterate body start) state (.returned result) after :=
  .iterate (h.bind (.pure _ _))

theorem iterate_next {next : τ} {ending : Ending β}
    (h : ComesTo host (body start) state (.returned (.inl next)) between)
    (hn : ComesTo host (Action.iterate body next) between ending after) :
    ComesTo host (Action.iterate body start) state ending after :=
  .iterate (h.bind hn)

end ComesTo

/-! ## Actions that end alike -/

/-- Both actions end: with values, and then `post` holds of them and of the states after them, or by
an exit with the same status, and then `left` holds of the states. -/
inductive Alike (host : Host σ) (left : σ → σ → Prop) (post : α → β → σ → σ → Prop)
    (action : Action α) (state : σ) (action' : Action β) (state' : σ) : Prop
  | returned {value : α} {value' : β} {after after' : σ} :
    ComesTo host action state (.returned value) after →
    ComesTo host action' state' (.returned value') after' → post value value' after after' →
    Alike host left post action state action' state'
  | exited {status : Status} {after after' : σ} :
    ComesTo host action state (.exited status) after →
    ComesTo host action' state' (.exited status) after' → left after after' →
    Alike host left post action state action' state'

namespace Alike

variable {left left' : σ → σ → Prop} {post : α → β → σ → σ → Prop} {action : Action α}
  {action' : Action β} {state state' : σ}

theorem pure {value : α} {value' : β} (h : post value value' state state') :
    Alike host left post (pure value) state (pure value') state' :=
  .returned (.pure value state) (.pure value' state') h

theorem mono {post' : α → β → σ → σ → Prop}
    (h : Alike host left post action state action' state') (hl : ∀ s s', left s s' → left' s s')
    (hp : ∀ v v' s s', post v v' s s' → post' v v' s s') :
    Alike host left' post' action state action' state' := by
  cases h with
  | returned h h' hpost => exact .returned h h' (hp _ _ _ _ hpost)
  | exited h h' hleft => exact .exited h h' (hl _ _ hleft)

theorem ask {request : Request} {next : request.Reply → Action α} {next' : request.Reply → Action β}
    (h : Alike host left post (next (host.answer request state).1) (host.answer request state).2
      (next' (host.answer request state').1) (host.answer request state').2) :
    Alike host left post (.ask request next) state (.ask request next') state' := by
  cases h with
  | returned hv hv' hpost => exact .returned hv.ask hv'.ask hpost
  | exited hs hs' hleft => exact .exited hs.ask hs'.ask hleft

theorem exec_error {program : String} {argv : List String} {next : Errno → Action α}
    {next' : Errno → Action β} {errno errno' : Errno} {between between' : σ}
    (he : host.exec program argv state = (.error errno, between))
    (he' : host.exec program argv state' = (.error errno', between'))
    (h : Alike host left post (next errno) between (next' errno') between') :
    Alike host left post (.exec program argv next) state (.exec program argv next') state' := by
  cases h with
  | returned hv hv' hpost => exact .returned (.exec_error he hv) (.exec_error he' hv') hpost
  | exited hs hs' hleft => exact .exited (.exec_error he hs) (.exec_error he' hs') hleft

theorem note {text text' : String} {next : Action α} {next' : Action β}
    (h : Alike host left post next (host.note text state) next' (host.note text' state')) :
    Alike host left post (.note text next) state (.note text' next') state' := by
  cases h with
  | returned hv hv' hpost => exact .returned hv.note hv'.note hpost
  | exited hs hs' hleft => exact .exited hs.note hs'.note hleft

/-- Alike at first, and alike from there on. -/
theorem bind {next : α → Action γ} {next' : β → Action δ} {post' : γ → δ → σ → σ → Prop}
    (h : Alike host left post action state action' state')
    (hn : ∀ v v' s s', post v v' s s' → Alike host left post' (next v) s (next' v') s') :
    Alike host left post' (action >>= next) state (action' >>= next') state' := by
  cases h with
  | returned h h' hpost =>
    cases hn _ _ _ _ hpost with
    | returned hv hv' hpost' => exact .returned (h.bind hv) (h'.bind hv') hpost'
    | exited hs hs' hleft => exact .exited (h.bind hs) (h'.bind hs') hleft
  | exited h h' hleft => exact .exited h.bind_exited h'.bind_exited hleft

/-- The first action ends as another one does from there. -/
theorem from_left {inner : Action α} {start : σ}
    (hc : ∀ ending after, ComesTo host inner start ending after →
      ComesTo host action state ending after)
    (h : Alike host left post inner start action' state') :
    Alike host left post action state action' state' := by
  cases h with
  | returned hv hv' hpost => exact .returned (hc _ _ hv) hv' hpost
  | exited hs hs' hleft => exact .exited (hc _ _ hs) hs' hleft

/-- The second action ends as another one does from there. -/
theorem from_right {inner : Action β} {start : σ}
    (hc : ∀ ending after, ComesTo host inner start ending after →
      ComesTo host action' state' ending after)
    (h : Alike host left post action state inner start) :
    Alike host left post action state action' state' := by
  cases h with
  | returned hv hv' hpost => exact .returned hv (hc _ _ hv') hpost
  | exited hs hs' hleft => exact .exited hs (hc _ _ hs') hleft

/-- What only the second action does at first. -/
theorem after_right {before : Action γ} {next : γ → Action β} {value : γ} {between : σ}
    (h : ComesTo host before state' (.returned value) between)
    (hn : Alike host left post action state (next value) between) :
    Alike host left post action state (before >>= next) state' :=
  hn.from_right fun _ _ => h.bind

/-- One round of a loop that only the first action makes. -/
theorem iterate_left {body : τ → Action (τ ⊕ α)} {start next : τ} {between : σ}
    (h : ComesTo host (body start) state (.returned (.inl next)) between)
    (hn : Alike host left post (iterate body next) between action' state') :
    Alike host left post (iterate body start) state action' state' :=
  hn.from_left fun _ _ => h.iterate_next

/-- What only the first action does at last. -/
theorem bind_left {next : α → Action γ} {post' : γ → β → σ → σ → Prop}
    (h : Alike host left post action state action' state')
    (hn : ∀ v v' s s', post v v' s s' → ∃ value after,
      ComesTo host (next v) s (.returned value) after ∧ post' value v' after s') :
    Alike host left post' (action >>= next) state action' state' := by
  cases h with
  | returned hv hv' hpost =>
    obtain ⟨value, after, hnext, hpost'⟩ := hn _ _ _ _ hpost
    exact .returned (hv.bind hnext) hv' hpost'
  | exited hs hs' hleft => exact .exited hs.bind_exited hs' hleft

/-- What only the second action does at last. -/
theorem bind_right {next : β → Action γ} {post' : α → γ → σ → σ → Prop}
    (h : Alike host left post action state action' state')
    (hn : ∀ v v' s s', post v v' s s' → ∃ value after,
      ComesTo host (next v') s' (.returned value) after ∧ post' v value s after) :
    Alike host left post' action state (action' >>= next) state' := by
  cases h with
  | returned hv hv' hpost =>
    obtain ⟨value, after, hnext, hpost'⟩ := hn _ _ _ _ hpost
    exact .returned hv (hv'.bind hnext) hpost'
  | exited hs hs' hleft => exact .exited hs hs'.bind_exited hleft

end Alike

end Action

end TinyShell
