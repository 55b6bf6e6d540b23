import TinyShell.Proofs.Shell.Rules
import TinyShell.Proofs.Shell.Table

/-!
# Actions that leave descriptors alone

`Action.Still.rests`: an action that makes no call on descriptors leaves the table of its process as
it is, whatever the system answers and also if it never ends. What the shell does once its pipes
are closed is of this kind (`Job.conclude_still`).
-/

namespace TinyShell

variable {σ α β : Type}

/-- A call that is not about descriptors. -/
def Request.isPassive : Request → Bool
  | .pipe | .duplicate .. | .close _ | .openFile .. => false
  | _ => true

theorem Table.After.eq_of_isPassive {table after : Table} {request : Request}
    {reply : request.Reply} (ha : table.After request reply after) (h : request.isPassive) :
    after = table := by
  cases request <;> first | exact ha | cases h

/-- The state that a call was made in. -/
def Move.before : Move σ → σ
  | .asked before .. | .executed before .. | .forked before .. => before

/-- All calls of the run were made with this table, and it ended with it if it ended. -/
structure Run.Rests (table : σ → Table) (base : Table) (run : Run σ α) : Prop where
  moves : ∀ move ∈ run.moves, table move.before = base
  result : ∀ ending state, run.result = some (ending, state) → table state = base

namespace Run.Rests

variable {table : σ → Table} {base : Table}

theorem pure {value : α} {state : σ} (h : table state = base) :
    (Run.pure value state).Rests table base := by
  refine ⟨by simp [Run.pure], fun ending state' hr => ?_⟩
  obtain ⟨-, rfl⟩ : Ending.returned value = ending ∧ state = state' := by
    simpa [Run.pure] using hr
  exact h

theorem after {run : Run σ α} {earlier : List (Move σ)} (h : run.Rests table base)
    (he : ∀ move ∈ earlier, table move.before = base) : (run.after earlier).Rests table base :=
  ⟨fun move hm => (List.mem_append.1 hm).elim (he move) (h.moves move), h.result⟩

theorem bind {run : Run σ α} {next : α → σ → Run σ β} (h : run.Rests table base)
    (hn : ∀ value state, table state = base → (next value state).Rests table base) :
    (run.bind next).Rests table base := by
  obtain ⟨moves, result⟩ := run
  rcases result with _ | ⟨value | status, state⟩
  · exact ⟨h.moves, by simp [Run.bind]⟩
  · exact (hn value state (h.result _ _ rfl)).after h.moves
  · refine ⟨h.moves, fun ending state' hr => ?_⟩
    obtain ⟨-, rfl⟩ : Ending.exited status = ending ∧ state = state' := by
      simpa [Run.bind] using hr
    exact h.result _ _ rfl

theorem rules : Rules fun state run => table state = base → run.Rests table base where
  cut _ _ := ⟨nofun, nofun⟩
  pure _ _ := .pure
  bind h hn hs := (h hs).bind hn

end Run.Rests

namespace Action

/-- The action makes no call on descriptors, and starts no child or program. -/
inductive Still : {α : Type} → Action α → Prop
  | done {α : Type} (value : α) : Still (.done value)
  | exit {α : Type} (status : Status) : Still (.exit status : Action α)
  | ask {α : Type} {request : Request} {next : request.Reply → Action α} :
    request.isPassive → (∀ reply, Still (next reply)) → Still (.ask request next)
  | note {α : Type} {text : String} {next : Action α} : Still next → Still (.note text next)
  | loop {α τ γ : Type} {body : τ → Action (τ ⊕ γ)} {start : τ} {next : γ → Action α} :
    (∀ start, Still (body start)) → (∀ value, Still (next value)) →
      Still (.loop body start next)

namespace Still

theorem pure (value : α) : Still (pure value) := .done value

theorem bind {action : Action α} {next : α → Action β} (h : Still action)
    (hn : ∀ value, Still (next value)) : Still (action >>= next) := by
  induction h with
  | done value => exact hn value
  | exit status => exact .exit status
  | ask hr _ ih => exact .ask hr fun reply => ih reply hn
  | note _ ih => exact .note (ih hn)
  | loop hb _ _ ih => exact .loop hb fun value => ih value hn

theorem call {request : Request} (h : request.isPassive) : Still (call request) := .ask h .done

theorem loopRules : LoopRules (·.isPassive) @Still where
  pure := .pure
  bind := .bind
  log _ := .note (.done ())
  call _ hr := .call hr
  close hr := nomatch hr
  iterate h _ := .loop h .done

/-- Whatever comes of it, the table stays. -/
theorem rests {host : Host σ} {table : σ → Table} (h : host.Keeps table) {action : Action α}
    (ha : Still action) (bound : Nat) {base : Table} {state : σ} (hs : table state = base) :
    (trace host bound action state).Rests table base := by
  induction ha generalizing state with
  | done value => exact .pure hs
  | exit status =>
    refine ⟨by simp [trace], fun ending state' hr => ?_⟩
    obtain ⟨-, rfl⟩ : Ending.exited status = ending ∧ state = state' := by
      simpa [trace] using hr
    exact hs
  | @ask _ request next hr _ ih =>
    have hafter := (h.answer request state).eq_of_isPassive hr
    rw [trace_ask]
    exact (ih _ (hafter.trans hs)).after (by simpa [Move.before] using hs)
  | @note _ text next _ ih => exact ih ((h.note text state).trans hs)
  | loop _ _ ihb ih =>
    exact Run.Rests.rules.loop (fun start _ => ihb start) (fun value _ => ih value) _ state hs

end Still

end Action

open TinyShell.Action (Still)

/-- What the shell does once its pipes are closed. -/
theorem Job.conclude_still (shell : Shell) (pipeline : Pipeline) (pids : List Pid)
    (failed : Bool) : Still (conclude shell pipeline pids failed) := by
  refine Still.loopRules.conclude (fun pid => ?_) (fun label text => ?_) shell pipeline pids failed
  · exact Still.loopRules.waitFor rfl fun _ => rfl
  · exact Still.loopRules.display (fun _ => .call rfl) label text

end TinyShell
