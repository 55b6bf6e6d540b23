import TinyShell.Proofs.Action.Trace
import TinyShell.Shell.Child

/-!
# Ledgers

The moves of a process, sorted by kind: what came of its calls for pipes, children and programs,
which descriptors it closed, and for whom it waited. Calls inside a child are in the ledger of that
child only. The ledger of two traces in a row is theirs put together (`Ledger.of_append`), so each
function has one equation for the part of the ledger that it writes.
-/

namespace TinyShell

/-- A child that was started, with its moves, or one that could not be. -/
structure Fork (σ : Type) where
  before : σ
  result : Except Errno Pid
  child : List (Move σ)

/-- A program that a process became, or failed to become. -/
structure Execution (σ : Type) where
  before : σ
  program : String
  argv : List String
  result : Except Errno Status

/-- The calls of one process, each kind in the order in which they were made. -/
structure Ledger (σ : Type) where
  pipes : List (Except Errno Pipe) := []
  forks : List (Fork σ) := []
  closed : List Descriptor := []
  waits : List (Pid × Except Errno Status) := []
  executions : List (Execution σ) := []

namespace Ledger

variable {σ : Type}

instance : Append (Ledger σ) :=
  ⟨fun a b => ⟨a.pipes ++ b.pipes, a.forks ++ b.forks, a.closed ++ b.closed, a.waits ++ b.waits,
    a.executions ++ b.executions⟩⟩

@[simp]
theorem append_mk (a b : Ledger σ) : a ++ b = ⟨a.pipes ++ b.pipes, a.forks ++ b.forks,
    a.closed ++ b.closed, a.waits ++ b.waits, a.executions ++ b.executions⟩ := rfl

/-- What one move adds. -/
def entry : Move σ → Ledger σ
  | .asked _ .pipe reply => { pipes := [reply] }
  | .asked _ (.close fd) _ => { closed := [fd] }
  | .asked _ (.wait pid) reply => { waits := [(pid, reply)] }
  | .asked .. => {}
  | .executed before program argv result => { executions := [⟨before, program, argv, result⟩] }
  | .forked before result child => { forks := [⟨before, result, child⟩] }

/-- The ledger of a trace. -/
def of : List (Move σ) → Ledger σ
  | [] => {}
  | move :: rest => entry move ++ of rest

@[simp]
theorem of_nil : of ([] : List (Move σ)) = {} := rfl

theorem of_cons (move : Move σ) (rest : List (Move σ)) :
    of (move :: rest) = entry move ++ of rest := rfl

@[simp]
theorem of_append (first second : List (Move σ)) :
    of (first ++ second) = of first ++ of second := by
  induction first with
  | nil => simp
  | cons move rest ih => simp [of_cons, ih]

/-- Moves that are not entered. -/
theorem of_eq_empty {moves : List (Move σ)} (h : ∀ move ∈ moves, entry move = {}) :
    of moves = {} := by
  induction moves with
  | nil => rfl
  | cons move rest ih =>
    rw [of_cons, h move List.mem_cons_self, ih fun m hm => h m (List.mem_cons_of_mem _ hm)]
    rfl

/-- What is entered as a fork was one. -/
theorem forked_of_mem {moves : List (Move σ)} {fork : Fork σ} (h : fork ∈ (of moves).forks) :
    Move.forked fork.before fork.result fork.child ∈ moves := by
  induction moves with
  | nil => simp at h
  | cons move rest ih =>
    rw [of_cons, append_mk, List.mem_append] at h
    rcases h with h | h
    · cases move with
      | asked before request reply => cases request <;> simp [entry] at h
      | executed => simp [entry] at h
      | forked before result child =>
        obtain rfl : fork = ⟨before, result, child⟩ := by simpa [entry] using h
        exact List.mem_cons_self
    · exact List.mem_cons_of_mem _ (ih h)

end Ledger

/-! ## The ends of pipes -/

/-- The ends of pipes, pipe by pipe. -/
def Pipe.ends (pipes : List Pipe) : List Descriptor :=
  pipes.flatMap fun pipe => [pipe.readEnd, pipe.writeEnd]

@[simp]
theorem Pipe.ends_nil : Pipe.ends [] = [] := rfl

@[simp]
theorem Pipe.ends_cons (pipe : Pipe) (rest : List Pipe) :
    Pipe.ends (pipe :: rest) = pipe.readEnd :: pipe.writeEnd :: Pipe.ends rest := rfl

namespace Child

variable {σ : Type} (host : Host σ) (bound : Nat)

/-- Closing pipes closes each end once, whatever comes of it. -/
theorem closePipes_returns (pipes : List Pipe) (state : σ) :
    (Action.trace host bound (closePipes pipes) state).Returns fun moves _ _ =>
      Ledger.of moves = { closed := Pipe.ends pipes } := by
  induction pipes generalizing state with
  | nil => exact .pure rfl
  | cons pipe rest ih =>
    rw [closePipes, Action.trace_call_bind, Action.trace_call_bind, Run.after_after]
    refine .after ((ih _).mono fun moves _ _ h => ?_)
    simp [Ledger.of_cons, Ledger.entry, h]

end Child

end TinyShell
