import TinyShell.Errno
import TinyShell.Handle

/-!
# Behaviors

What a process does, as a tree: at each node it makes a call and goes on with the answer. Two
processes that are the same tree behave alike on every system, whatever it answers. Repetition is a
node of its own, so that every process is a finite description even if it may run for ever.
-/

namespace TinyShell

/-- A process that makes calls, each answered by a `Reply`, and ends with a value of type `α`,
unless it exits before. -/
inductive Behavior {Call : Type} (Reply : Call → Type) : Type → Type 1 where
  | done {α : Type} (value : α) : Behavior Reply α
  /-- The process is over. -/
  | exit {α : Type} (status : Status) : Behavior Reply α
  | ask {α : Type} (call : Call) (next : Reply call → Behavior Reply α) : Behavior Reply α
  /-- The process becomes another program; it goes on here only if that failed. -/
  | exec {α : Type} (program : String) (argv : List String) (next : Errno → Behavior Reply α) :
    Behavior Reply α
  /-- A child process runs `child`; this one goes on with the child's number. -/
  | spawn {α : Type} (child : Behavior Reply Status)
      (next : Except Errno Pid → Behavior Reply α) : Behavior Reply α
  /-- A line for the journal. -/
  | note {α : Type} (text : String) (next : Behavior Reply α) : Behavior Reply α
  /-- `body` again and again, from `start`, as long as it answers with a state to go on from. -/
  | loop {α σ β : Type} (body : σ → Behavior Reply (σ ⊕ β)) (start : σ)
      (next : β → Behavior Reply α) : Behavior Reply α

namespace Behavior

variable {Call : Type} {Reply : Call → Type} {α β γ σ : Type}

/-- First one behavior, then the one that its value chooses. -/
def andThen {α β : Type} : Behavior Reply α → (α → Behavior Reply β) → Behavior Reply β
  | done value, f => f value
  | exit status, _ => exit status
  | ask call next, f => ask call fun reply => andThen (next reply) f
  | exec program argv next, f => exec program argv fun errno => andThen (next errno) f
  | spawn child next, f => spawn child fun pid => andThen (next pid) f
  | note text next, f => note text (andThen next f)
  | loop body start next, f => loop body start fun value => andThen (next value) f

instance : Monad (Behavior Reply) where
  pure := done
  bind := andThen

@[simp]
theorem pure_eq_done (value : α) : (pure value : Behavior Reply α) = done value := rfl

@[simp]
theorem done_bind (value : α) (f : α → Behavior Reply β) : done value >>= f = f value := rfl

@[simp]
theorem exit_bind (status : Status) (f : α → Behavior Reply β) :
    exit status >>= f = exit status := rfl

@[simp]
theorem ask_bind (call : Call) (next : Reply call → Behavior Reply α)
    (f : α → Behavior Reply β) : ask call next >>= f = ask call fun reply => next reply >>= f :=
  rfl

@[simp]
theorem exec_bind (program : String) (argv : List String) (next : Errno → Behavior Reply α)
    (f : α → Behavior Reply β) :
    exec program argv next >>= f = exec program argv fun errno => next errno >>= f := rfl

@[simp]
theorem spawn_bind (child : Behavior Reply Status) (next : Except Errno Pid → Behavior Reply α)
    (f : α → Behavior Reply β) : spawn child next >>= f = spawn child fun pid => next pid >>= f :=
  rfl

@[simp]
theorem note_bind (text : String) (next : Behavior Reply α) (f : α → Behavior Reply β) :
    note text next >>= f = note text (next >>= f) := rfl

@[simp]
theorem loop_bind (body : σ → Behavior Reply (σ ⊕ γ)) (start : σ) (next : γ → Behavior Reply α)
    (f : α → Behavior Reply β) :
    loop body start next >>= f = loop body start fun value => next value >>= f := rfl

@[simp]
theorem bind_done (behavior : Behavior Reply α) : behavior >>= done = behavior := by
  induction behavior with
  | done | exit => rfl
  | ask call next ih => exact congrArg (ask call) (funext ih)
  | exec program argv next ih => exact congrArg (exec program argv) (funext ih)
  | spawn child next _ ih => exact congrArg (spawn child) (funext ih)
  | note text next ih => exact congrArg (note text) ih
  | loop body start next _ ih => exact congrArg (loop body start) (funext ih)

theorem bind_assoc (behavior : Behavior Reply α) (f : α → Behavior Reply β)
    (g : β → Behavior Reply γ) :
    behavior >>= f >>= g = behavior >>= fun value => f value >>= g := by
  induction behavior with
  | done | exit => rfl
  | ask call next ih => exact congrArg (ask call) (funext fun reply => ih reply f)
  | exec program argv next ih => exact congrArg (exec program argv) (funext fun errno => ih errno f)
  | spawn child next _ ih => exact congrArg (spawn child) (funext fun pid => ih pid f)
  | note text next ih => exact congrArg (note text) (ih f)
  | loop body start next _ ih => exact congrArg (loop body start) (funext fun value => ih value f)

/-- `body` until it answers with a result. -/
def iterate (body : σ → Behavior Reply (σ ⊕ β)) (start : σ) : Behavior Reply β :=
  loop body start done

/-- The same behavior in other calls: each call is made as `call` says. -/
def mapCalls {Other : Type} {Answer : Other → Type} {α : Type}
    (call : (made : Call) → Behavior Answer (Reply made)) : Behavior Reply α → Behavior Answer α
  | done value => done value
  | exit status => exit status
  | ask made next => (call made).andThen fun reply => mapCalls call (next reply)
  | exec program argv next => exec program argv fun errno => mapCalls call (next errno)
  | spawn child next => spawn (mapCalls call child) fun pid => mapCalls call (next pid)
  | note text next => note text (mapCalls call next)
  | loop body start next =>
    loop (fun state => mapCalls call (body state)) start fun value => mapCalls call (next value)

end Behavior

end TinyShell
