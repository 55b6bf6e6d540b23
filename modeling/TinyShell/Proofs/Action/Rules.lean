import TinyShell.Shell.Line

/-!
# Rules for actions

What holds of the parts of an action often holds of all of it: that it makes only such calls, that
it ends, that nothing depends on what comes of a write. `Action.Rules requests P` says so of a
property `P`, with one rule for each way of putting actions together; calls may be made that are
among `requests`. `Action.LoopRules` has a rule for loops as well.

What is shown of a function by these rules alone holds of it for every property that has them:
`Action.LoopRules.display`, and `Action.LoopRules.read`.
-/

namespace TinyShell

/-- What comes of the call is heeded. -/
def Request.isHeeded : Request → Bool
  | .write .. | .close _ => false
  | _ => true

namespace Action

/-- The property passes from the parts of an action to the whole, if the calls in it are of this
kind. -/
structure Rules (requests : Request → Prop) (P : {α : Type} → Action α → Prop) : Prop where
  pure {α : Type} (value : α) : P (Pure.pure value)
  bind {α β : Type} {action : Action α} {next : α → Action β} : P action →
    (∀ value, P (next value)) → P (action >>= next)
  log (text : String) : P (Action.log text)
  call {request : Request} : request.isHeeded → requests request → P (Action.call request)
  /-- What comes of a close is forgotten at once. -/
  close {α : Type} {fd : Descriptor} {next : Action α} : requests (.close fd) → P next →
    P (Action.call (.close fd) >>= fun _ => next)

/-- The property also passes from the rounds of a loop to the loop. -/
structure LoopRules (requests : Request → Prop) (P : {α : Type} → Action α → Prop) : Prop
    extends Rules requests P where
  iterate {σ α : Type} {body : σ → Action (σ ⊕ α)} : (∀ start, P (body start)) →
    ∀ start, P (Action.iterate body start)

variable {requests requests' : Request → Prop} {P : {α : Type} → Action α → Prop}

namespace Rules

theorem mono (h : Rules requests P) (hr : ∀ request, requests' request → requests request) :
    Rules requests' P :=
  { h with
    call := fun hh hq => h.call hh (hr _ hq)
    close := fun hq hn => h.close (hr _ hq) hn }

theorem report (h : Rules requests P) {level : Level} {message : String}
    (hr : requests (.report level message)) : P (Action.report level message) := h.call rfl hr

end Rules

namespace LoopRules

variable (h : LoopRules requests P)
include h

/-- A text is written in rounds, and that it could not be is only noted. -/
theorem display (hw : ∀ bytes, P (Action.call (.write .output bytes))) (label text : String) :
    P (display label text) := by
  have hsome (bytes : Text.Bytes) : P (writeSome .output bytes) := by
    unfold writeSome
    split
    · exact h.pure _
    · refine h.bind (hw bytes) fun reply => ?_
      rcases reply with errno | taken
      · cases errno <;> exact h.pure _
      · cases taken <;> exact h.pure _
  refine h.bind (h.iterate hsome _) fun result => ?_
  rcases result with errno | _
  · exact h.log _
  · exact h.pure _

/-- A line is read byte by byte, and nothing else is done for it. -/
theorem read {fd : Descriptor} (hr : requests (.read fd 1)) (buffer : LineBuffer) :
    P (buffer.read fd) := by
  refine h.iterate (fun buffer => ?_) _
  unfold LineBuffer.readByte
  split
  · exact h.pure _
  · refine h.bind (h.call rfl hr) fun reply => ?_
    rcases reply with errno | _ | ⟨byte, rest⟩
    · cases errno <;> exact h.pure _
    · exact h.pure _
    · simp only
      split <;> exact h.pure _

end LoopRules

end Action

end TinyShell
