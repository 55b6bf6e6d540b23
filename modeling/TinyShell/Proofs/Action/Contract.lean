import TinyShell.Proofs.Action.Alike
import TinyShell.Proofs.Shell.Offhand
import TinyShell.Proofs.Shell.Write

/-!
# What an action may do

Two facts about an action that hold whatever the system answers. `Action.Calls`: which calls its
process makes, and which children it starts. `Action.Ensures`: how it ends, if it does. Both have a
rule for each way of putting actions together; `Action.Stays` is the case of the second that nothing
is known of the value.
-/

namespace TinyShell

variable {σ τ α β : Type}

/-- An ending with a value of which this holds. -/
def Ending.Returned (post : α → Prop) : Ending α → Prop
  | .returned value => post value
  | .exited _ => False

theorem Ending.Returned.mono {post post' : α → Prop} {ending : Ending α}
    (h : ending.Returned post) (hp : ∀ value, post value → post' value) :
    ending.Returned post' := by
  cases ending with
  | returned value => exact hp value h
  | exited status => exact h

/-- A call that is one of these, or a child that is one of these. -/
def Move.Allowed (requests : Request → Prop) (spawns : Prop) : Move σ → Prop
  | .asked _ request _ => requests request
  | .executed .. => True
  | .forked .. => spawns

namespace Action

/-! ## Calls -/

/-- The process makes only calls that `requests` allows, and starts only children that `children`
allows. -/
inductive Calls (requests : Request → Prop) (children : Action Status → Prop) :
    {α : Type} → Action α → Prop
  | done {α : Type} (value : α) : Calls requests children (.done value)
  | exit {α : Type} (status : Status) : Calls requests children (.exit status : Action α)
  | ask {α : Type} {request : Request} {next : request.Reply → Action α} : requests request →
    (∀ reply, Calls requests children (next reply)) → Calls requests children (.ask request next)
  | exec {α : Type} {program : String} {argv : List String} {next : Errno → Action α} :
    (∀ errno, Calls requests children (next errno)) →
      Calls requests children (.exec program argv next)
  | spawn {α : Type} {child : Action Status} {next : Except Errno Pid → Action α} :
    children child → (∀ result, Calls requests children (next result)) →
      Calls requests children (.spawn child next)
  | note {α : Type} {text : String} {next : Action α} : Calls requests children next →
    Calls requests children (.note text next)
  | loop {α τ γ : Type} {body : τ → Action (τ ⊕ γ)} {start : τ} {next : γ → Action α} :
    (∀ start, Calls requests children (body start)) →
      (∀ value, Calls requests children (next value)) →
        Calls requests children (.loop body start next)

namespace Calls

variable {requests requests' : Request → Prop} {children children' : Action Status → Prop}
  {action : Action α}

theorem pure (value : α) : Calls requests children (pure value) := .done value

theorem bind {next : α → Action β} (h : Calls requests children action)
    (hn : ∀ value, Calls requests children (next value)) :
    Calls requests children (action >>= next) := by
  induction h with
  | done value => exact hn value
  | exit status => exact .exit status
  | ask hr _ ih => exact .ask hr fun reply => ih reply hn
  | exec _ ih => exact .exec fun errno => ih errno hn
  | spawn hc _ ih => exact .spawn hc fun result => ih result hn
  | note _ ih => exact .note (ih hn)
  | loop hb _ _ ih => exact .loop hb fun value => ih value hn

theorem call {request : Request} (h : requests request) :
    Calls requests children (call request) := .ask h .done

theorem log (text : String) : Calls requests children (log text) := .note (.done ())

theorem fork {child : Action Status} (h : children child) :
    Calls requests children (fork child) := .spawn h .done

theorem iterate {body : τ → Action (τ ⊕ β)} (h : ∀ start, Calls requests children (body start))
    (start : τ) : Calls requests children (iterate body start) := .loop h .done

theorem loopRules : LoopRules requests (@Calls requests children) where
  pure := .pure
  bind := .bind
  log := .log
  call _ hr := .call hr
  close hr hn := .bind (.call hr) fun _ => hn
  iterate := .iterate

theorem display (hw : ∀ bytes, requests (.write .output bytes)) (label text : String) :
    Calls requests children (display label text) :=
  loopRules.display (fun bytes => .call (hw bytes)) label text

theorem mono (h : Calls requests children action) (hr : ∀ request, requests request →
    requests' request) (hc : ∀ child, children child → children' child) :
    Calls requests' children' action := by
  induction h with
  | done value => exact .done value
  | exit status => exact .exit status
  | ask h _ ih => exact .ask (hr _ h) ih
  | exec _ ih => exact .exec ih
  | spawn h _ ih => exact .spawn (hc _ h) ih
  | note _ ih => exact .note ih
  | loop _ _ ihb ih => exact .loop ihb ih

/-- That all moves are of a kind, by the rules for runs. -/
theorem runRules (p : Move σ → Prop) : Run.Rules fun (_ : σ) run => ∀ move ∈ run.moves, p move where
  cut _ := nofun
  pure _ _ := nofun
  bind {_ _ run _ _} h hn := by
    obtain ⟨moves, _ | ⟨value | status, last⟩⟩ := run
    · exact h
    · exact fun move hm => (List.mem_append.1 hm).elim (h move) (hn value last move)
    · exact h

/-- The moves of the process are as allowed, also if it never ends. -/
theorem moves (h : Calls requests children action) (host : Host σ) (bound : Nat) (state : σ) :
    ∀ move ∈ (trace host bound action state).moves,
      move.Allowed requests (∃ child, children child) := by
  induction h generalizing state with
  | done | exit => simp [trace, Run.pure]
  | @ask _ request next hr _ ih =>
    intro move hm
    rw [trace_ask] at hm
    rcases List.mem_cons.1 hm with rfl | hm
    · exact hr
    · exact ih _ _ move hm
  | @exec _ program argv next _ ih =>
    intro move hm
    rcases he : host.exec program argv state with ⟨errno | status, state'⟩
    · rw [trace_exec_error he] at hm
      rcases List.mem_cons.1 hm with rfl | hm
      · trivial
      · exact ih errno state' move hm
    · rw [trace_exec_ok he] at hm
      obtain rfl := List.mem_singleton.1 hm
      trivial
  | @spawn _ child next hc _ ih =>
    intro move hm
    have hborn : ∃ child, children child := ⟨child, hc⟩
    rcases hf : host.fork state with ⟨errno | pid, state'⟩
    · rw [trace_spawn_error hf] at hm
      rcases List.mem_cons.1 hm with rfl | hm
      · exact hborn
      · exact ih _ state' move hm
    · rcases hr : (trace host bound child state').result with _ | ⟨ending, after⟩
      · rw [trace_spawn_none hf hr] at hm
        obtain rfl := List.mem_singleton.1 hm
        exact hborn
      · rw [trace_spawn_ok hf hr] at hm
        rcases List.mem_cons.1 hm with rfl | hm
        · exact hborn
        · exact ih _ _ move hm
  | @note _ text next _ ih => exact ih (host.note text state)
  | loop _ _ ihb ih => exact (runRules _).loop ihb ih _ state

end Calls

/-- What is done offhand are calls that are offhand. -/
theorem Offhand.calls {action : Action α} (h : Offhand action) :
    Calls (·.isOffhand) (fun _ => False) action := by
  induction h with
  | done value => exact .done value
  | exit status => exact .exit status
  | ask hr _ ih => exact .ask hr ih
  | exec _ ih => exact .exec ih
  | note _ ih => exact .note ih

/-! ## Endings -/

/-- However the system answers, the action ends in no other way. -/
def Ensures (action : Action α) (post : Ending α → Prop) : Prop :=
  ∀ (σ : Type) (host : Host σ) (bound : Nat) (state : σ) (ending : Ending α) (after : σ),
    run host bound action state = some (ending, after) → post ending

namespace Ensures

variable {action : Action α} {post post' : Ending α → Prop}

theorem mono (h : Ensures action post) (hp : ∀ ending, post ending → post' ending) :
    Ensures action post' :=
  fun σ host bound state ending after hr => hp ending (h σ host bound state ending after hr)

theorem pure {value : α} (h : post (.returned value)) : Ensures (pure value) post := by
  intro _ host bound state ending after hr
  obtain ⟨rfl, -⟩ : .returned value = ending ∧ state = after := by simpa [run] using hr
  exact h

theorem exit {status : Status} (h : post (.exited status)) : Ensures (.exit status) post := by
  intro _ host bound state ending after hr
  obtain ⟨rfl, -⟩ : .exited status = ending ∧ state = after := by simpa [run] using hr
  exact h

theorem bind {next : α → Action β} {post' : Ending β → Prop} (h : Ensures action post)
    (hn : ∀ value, post (.returned value) → Ensures (next value) post')
    (hx : ∀ status, post (.exited status) → post' (.exited status)) :
    Ensures (action >>= next) post' := by
  intro _ host bound state ending after hr
  rw [run_bind] at hr
  rcases hfirst : run host bound action state with _ | ⟨value | status, between⟩ <;>
    rw [hfirst] at hr
  · cases hr
  · exact hn value (h _ _ _ _ _ _ hfirst) _ host bound between ending after hr
  · obtain ⟨rfl, -⟩ : .exited status = ending ∧ between = after := by simpa using hr
    exact hx status (h _ _ _ _ _ _ hfirst)

/-- The first action does not leave, so its sequel has the say. -/
theorem andThen {next : α → Action β} {mid : α → Prop} {post' : Ending β → Prop}
    (h : Ensures action (Ending.Returned mid)) (hn : ∀ value, mid value →
      Ensures (next value) post') : Ensures (action >>= next) post' :=
  h.bind hn fun _ hx => hx.elim

theorem call (request : Request) : Ensures (call request) (Ending.Returned fun _ => True) := by
  intro _ host bound state ending after hr
  obtain ⟨rfl, -⟩ : .returned _ = ending ∧ _ = after := by simpa [Action.call, run] using hr
  trivial

theorem log (text : String) : Ensures (log text) (Ending.Returned fun _ => True) := by
  intro _ host bound state ending after hr
  obtain ⟨rfl, -⟩ : .returned () = ending ∧ _ = after := by simpa [Action.log, run] using hr
  trivial

/-- A child that leaves does not take its parent along. -/
theorem fork (child : Action Status) :
    Ensures (fork child) (Ending.Returned fun _ => True) := by
  intro _ host bound state ending after hr
  simp only [Action.fork, run] at hr
  rcases hf : host.fork state with ⟨errno | pid, born⟩ <;> simp only [hf] at hr
  · obtain ⟨rfl, -⟩ : .returned _ = ending ∧ _ = after := by simpa using hr
    trivial
  · rcases hc : run host bound child born with _ | ⟨status, gone⟩ <;> simp only [hc] at hr
    · cases hr
    · obtain ⟨rfl, -⟩ : .returned _ = ending ∧ _ = after := by simpa using hr
      trivial

/-- A loop that leaves in no round. -/
theorem iterate {invariant : τ → Prop} {post : β → Prop} {body : τ → Action (τ ⊕ β)}
    (h : ∀ start, invariant start →
      Ensures (body start) (Ending.Returned (Sum.elim invariant post)))
    {start : τ} (hs : invariant start) : Ensures (iterate body start) (Ending.Returned post) := by
  intro σ host bound state ending after hr
  rw [run_iterate] at hr
  suffices hrounds : ∀ count start state, invariant start →
      rounds (fun start state => run host bound (body start) state) count start state =
        some (ending, after) → ending.Returned post from hrounds bound start state hs hr
  intro count
  induction count with
  | zero => exact fun _ _ _ hr => nomatch hr
  | succ count ih =>
    intro start state hs hr
    rw [rounds] at hr
    rcases hb : run host bound (body start) state with _ | ⟨(next | value) | status, between⟩ <;>
      rw [hb] at hr
    · cases hr
    · exact ih next between (h start hs _ _ _ _ _ _ hb) hr
    · obtain ⟨rfl, -⟩ : .returned value = ending ∧ between = after := by simpa using hr
      exact h start hs _ _ _ _ _ _ hb
    · exact (h start hs _ _ _ _ _ _ hb).elim

theorem of_returns {post : α → Prop} (h : ∀ {σ : Type} (host : Host σ) (bound : Nat) (state : σ),
    (trace host bound action state).Returns fun _ value _ => post value) :
    Ensures action (Ending.Returned post) := by
  intro _ host bound state ending after hr
  obtain ⟨value, state', hv, hp⟩ := h host bound state
  rw [trace_result, hr] at hv
  obtain ⟨rfl, -⟩ : ending = .returned value ∧ after = state' := by simpa using hv
  exact hp

theorem display (label text : String) :
    Ensures (display label text) (Ending.Returned fun _ => True) := by
  intro _ host bound state ending after hr
  rw [← trace_result] at hr
  rcases ending with value | status
  · trivial
  · exact ((display_writes host bound label text state).stays status after hr).elim

end Ensures

/-- If the action ends, the process goes on. -/
abbrev Stays (action : Action α) : Prop := Ensures action (Ending.Returned fun _ => True)

theorem Stays.loopRules : LoopRules (fun _ => True) @Stays where
  pure _ := .pure trivial
  bind h hn := h.andThen fun value _ => hn value
  log := .log
  call _ _ := .call _
  close _ hn := (Ensures.call _).andThen fun _ _ => hn
  iterate h _ := by
    refine Ensures.iterate (fun start (_ : True) => (h start).mono fun _ he => ?_) trivial
    exact he.mono fun value _ => by cases value <;> trivial

end Action

end TinyShell
