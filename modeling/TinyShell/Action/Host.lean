import TinyShell.Action.Basic

/-!
# Hosts

An operating system that actions run on: a state, and for each kind of node what it does to the
state. Children run to their end as soon as they are started, and `join` says what of a child's
world its parent sees.

A run gives each loop a bound on its rounds. A run that reaches no bound does not depend on it.
-/

namespace TinyShell

/-- How a process ended: with a value, or by leaving early. -/
inductive Ending (α : Type) where
  | returned (value : α)
  | exited (status : Status)

/-- The status that a child leaves behind, however it ended. -/
def Ending.status : Ending Status → Status
  | returned status => status
  | exited status => status

/-- An operating system with states of type `σ`. -/
structure Host (σ : Type) where
  answer : (request : Request) → σ → request.Reply × σ
  /-- The status of the program that took over, or the reason why none did. -/
  exec : (program : String) → (argv : List String) → σ → Except Errno Status × σ
  /-- The number of the child, which starts in the state left. -/
  fork : σ → Except Errno Pid × σ
  /-- The parent's state after the child, from those of the parent and of the child. -/
  join : (parent child : σ) → Pid → Status → σ
  /-- A line is added to the journal, if there is one. -/
  note : String → σ → σ

namespace Action

/-- At most `bound` rounds of `step`. -/
def rounds {σ τ β : Type} (step : τ → σ → Option (Ending (τ ⊕ β) × σ)) :
    (bound : Nat) → τ → σ → Option (Ending β × σ)
  | 0, _, _ => none
  | bound + 1, start, state =>
    match step start state with
    | none => none
    | some (.exited status, state) => some (.exited status, state)
    | some (.returned (.inr value), state) => some (.returned value, state)
    | some (.returned (.inl next), state) => rounds step bound next state

/-- The run of an action from a state; nothing if a loop went on for more than `bound` rounds. -/
def run {σ α : Type} (host : Host σ) (bound : Nat) : Action α → σ → Option (Ending α × σ)
  | .done value, state => some (.returned value, state)
  | .exit status, state => some (.exited status, state)
  | .ask request next, state =>
    let (reply, state) := host.answer request state
    run host bound (next reply) state
  | .exec program argv next, state =>
    match host.exec program argv state with
    | (.ok status, state) => some (.exited status, state)
    | (.error errno, state) => run host bound (next errno) state
  | .spawn child next, state =>
    match host.fork state with
    | (.error errno, state) => run host bound (next (.error errno)) state
    | (.ok pid, state) =>
      match run host bound child state with
      | none => none
      | some (ending, after) =>
        run host bound (next (.ok pid)) (host.join state after pid ending.status)
  | .note text next, state => run host bound next (host.note text state)
  | .loop body start next, state =>
    match rounds (fun start state => run host bound (body start) state) bound start state with
    | none => none
    | some (.exited status, state) => some (.exited status, state)
    | some (.returned value, state) => run host bound (next value) state

end Action

/-- The host with a journal beside its state. -/
def Host.journaling {σ : Type} (host : Host σ) : Host (σ × List String) where
  answer request state :=
    let (reply, inner) := host.answer request state.1
    (reply, inner, state.2)
  exec program argv state :=
    let (result, inner) := host.exec program argv state.1
    (result, inner, state.2)
  fork state :=
    let (pid, inner) := host.fork state.1
    (pid, inner, state.2)
  join parent child pid status := (host.join parent.1 child.1 pid status, child.2)
  note text state := (state.1, state.2 ++ [text])

end TinyShell
