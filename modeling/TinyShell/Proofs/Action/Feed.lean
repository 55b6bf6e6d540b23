import TinyShell.Proofs.Action.Alike

/-!
# What reads are answered

`Host.feed` is the sequence of the replies that reads of one byte get if they are made one after the
other. `Host.Steady` says that nothing else has a say in them: any other call leaves the sequence as
it is, and so does a child.
-/

namespace TinyShell

open Text (Bytes)

/-- What comes of a read. -/
abbrev Reading := Except Errno Bytes

/-- There is something to read. -/
def Reading.isByte : Reading → Bool
  | .ok (_ :: _) => true
  | _ => false

/-- There is nothing more to read, for now at least. -/
def Reading.isEnd : Reading → Bool
  | .ok [] => true
  | _ => false

theorem Reading.isEnd_of_isByte {reply : Reading} (h : isByte reply) : isEnd reply = false := by
  rcases reply with _ | _ | _
  · cases h
  · cases h
  · rfl

namespace Host

variable {σ : Type} (host : Host σ) (fd : Descriptor)

/-- The state after so many reads of one byte. -/
def afterReads : Nat → σ → σ
  | 0, state => state
  | count + 1, state => afterReads count (host.answer (.read fd 1) state).2

/-- The reply to the read of one byte that is made after `i` others. -/
def feed (state : σ) (i : Nat) : Reading :=
  (host.answer (.read fd 1) (host.afterReads fd i state)).1

theorem feed_next (state : σ) (i : Nat) :
    host.feed fd (host.answer (.read fd 1) state).2 i = host.feed fd state (i + 1) := rfl

/-- What reads are answered does not depend on other calls. A child makes none, so that its parent
goes on reading where it was, whether the two share their state or not. -/
structure Steady : Prop where
  answer : ∀ request state, (∀ other count, request ≠ .read other count) →
    host.feed fd (host.answer request state).2 = host.feed fd state
  exec : ∀ program argv state, host.feed fd (host.exec program argv state).2 = host.feed fd state
  fork : ∀ state, host.feed fd (host.fork state).2 = host.feed fd state
  join : ∀ parent child pid status,
    host.feed fd (host.join parent child pid status) = host.feed fd parent ∨
      host.feed fd (host.join parent child pid status) = host.feed fd child
  note : ∀ text state, host.feed fd (host.note text state) = host.feed fd state

end Host

end TinyShell
