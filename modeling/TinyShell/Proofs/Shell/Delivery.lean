import Mathlib.Data.List.Basic
import TinyShell.Proofs.Action.Doings
import TinyShell.Proofs.Rehearsal.Plan

/-!
# A text arrives

`writeText_delivers`: whatever the answers to its calls are, a text that is written is taken byte by
byte in its order, none of them twice and none left out. Each call is offered all that was not yet
taken, the first one that is refused is the last, and the outcome says whether all was taken.

`Delivers` follows the loop: an offer that takes something or is interrupted, and then the rest of
the text. Writing is a delivery (`writeRounds_delivers`), and what is said of a delivery
(`Delivery`) is an induction on it.
-/

namespace TinyShell

open Text (Bytes)
open TinyShell.Action (trace)

variable {σ α : Type}

/-! ## Offers -/

/-- A call to write: the bytes that it was offered, and what came of it. -/
structure Offer where
  bytes : Bytes
  reply : Except Errno Nat
  deriving DecidableEq

namespace Offer

/-- The bytes that the call took. -/
def taken (offer : Offer) : Bytes :=
  match offer.reply with
  | .ok count => offer.bytes.take count
  | .error _ => []

/-- The error that a text ends with by this call: it took nothing, or failed for another reason than
an interruption. -/
def refusal? (offer : Offer) : Option Errno :=
  match offer.reply with
  | .ok 0 => some .eio
  | .ok _ => none
  | .error .eintr => none
  | .error errno => some errno

/-- No more is said to be taken than was offered. -/
def Modest (offer : Offer) : Prop := ∀ count, offer.reply = .ok count → count ≤ offer.bytes.length

theorem Modest.length_taken {offer : Offer} (h : offer.Modest) {count : Nat}
    (hr : offer.reply = .ok count) : offer.taken.length = count := by
  rw [taken, hr]
  exact List.length_take_of_le (h count hr)

/-- A refused call took nothing. -/
theorem taken_of_refusal {offer : Offer} (h : offer.refusal?.isSome) : offer.taken = [] := by
  obtain ⟨bytes, reply⟩ := offer
  rcases reply with errno | _ | count
  · rfl
  · rfl
  · cases h

end Offer

/-- The offer that the move is, if it is one to this descriptor. -/
def Move.offer? (fd : Descriptor) : Move σ → Option Offer
  | .asked _ (.write target bytes) reply => if target = fd then some ⟨bytes, reply⟩ else none
  | _ => none

/-- The calls to write to a descriptor. -/
def offers (fd : Descriptor) (moves : List (Move σ)) : List Offer :=
  moves.filterMap (Move.offer? fd)

@[simp]
theorem offers_nil (fd : Descriptor) : offers fd ([] : List (Move σ)) = [] := rfl

@[simp]
theorem offers_write_cons (fd : Descriptor) (before : σ) (bytes : Bytes) (reply : Except Errno Nat)
    (rest : List (Move σ)) : offers fd (.asked before (.write fd bytes) reply :: rest) =
      ⟨bytes, reply⟩ :: offers fd rest := by
  simp [offers, Move.offer?]

/-- The value that a run has come to, if it has. -/
def Run.value? (run : Run σ α) : Option α :=
  match run.result with
  | some (.returned value, _) => some value
  | _ => none

/-! ## What is left after an offer -/

theorem writeOutcome_inl {bytes left : Bytes} {reply : Except Errno Nat}
    (h : writeOutcome bytes reply = .inl left) :
    Offer.refusal? ⟨bytes, reply⟩ = none ∧ Offer.taken ⟨bytes, reply⟩ ++ left = bytes := by
  rcases writeOutcome_eq_inl h with ⟨rfl, rfl⟩ | ⟨count, rfl, rfl⟩
  · exact ⟨rfl, rfl⟩
  · exact ⟨rfl, List.take_append_drop ..⟩

theorem writeOutcome_inr {bytes : Bytes} {reply : Except Errno Nat} {result : Except Errno Unit}
    (h : writeOutcome bytes reply = .inr result) :
    ∃ errno, Offer.refusal? ⟨bytes, reply⟩ = some errno ∧ result = .error errno := by
  rcases reply with errno | _ | count
  · cases errno <;> cases h <;> exact ⟨_, rfl, rfl⟩
  · cases h
    exact ⟨_, rfl, rfl⟩
  · cases h

/-! ## Deliveries -/

/-- The calls for a text as far as they have come, and the outcome if there is one. -/
inductive Delivers : Bytes → List Offer → Option (Except Errno Unit) → Prop
  | underway (bytes : Bytes) : Delivers bytes [] none
  | finished : Delivers [] [] (some (.ok ()))
  | goesOn {offer : Offer} {left : Bytes} {rest : List Offer}
    {ended : Option (Except Errno Unit)} : offer.bytes ≠ [] → offer.Modest →
    offer.refusal? = none → offer.taken ++ left = offer.bytes → Delivers left rest ended →
    Delivers offer.bytes (offer :: rest) ended
  | refused {offer : Offer} {errno : Errno} : offer.bytes ≠ [] → offer.Modest →
    offer.refusal? = some errno → Delivers offer.bytes [offer] (some (.error errno))

/-- What can be said of the calls for a text. -/
structure Delivery (bytes : Bytes) (offers : List Offer) (ended : Option (Except Errno Unit)) :
    Prop where
  /-- At any time, what was taken is a beginning of the text. -/
  inOrder : ∀ sofar, sofar <+: offers → sofar.flatMap Offer.taken <+: bytes
  /-- A call is offered just what those before it did not take, and something is left then. -/
  offered : ∀ before offer after, offers = before ++ offer :: after →
    before.flatMap Offer.taken ++ offer.bytes = bytes ∧ offer.bytes ≠ []
  /-- Nothing is offered of an empty text. -/
  silent : bytes = [] → offers = []
  /-- As many bytes are taken as the answer says. -/
  counted : ∀ offer ∈ offers, ∀ count, offer.reply = .ok count → offer.taken.length = count
  /-- No call is made after one that was refused. -/
  last : ∀ before offer after, offers = before ++ offer :: after → offer.refusal?.isSome →
    after = []
  /-- It has failed just if a call was refused, and then for that reason. -/
  failed : ∀ errno, ended = some (.error errno) ↔ offers.findSome? Offer.refusal? = some errno
  /-- It comes out well just if all was taken. -/
  whole : ended.isSome → (ended = some (.ok ()) ↔ offers.flatMap Offer.taken = bytes)

namespace Delivers

variable {bytes : Bytes} {calls : List Offer} {ended : Option (Except Errno Unit)}

theorem inOrder (h : Delivers bytes calls ended) {sofar : List Offer} (hs : sofar <+: calls) :
    sofar.flatMap Offer.taken <+: bytes := by
  induction h generalizing sofar with
  | underway bytes =>
    obtain rfl := List.prefix_nil.1 hs
    exact List.nil_prefix
  | finished =>
    obtain rfl := List.prefix_nil.1 hs
    exact List.nil_prefix
  | @goesOn offer left rest ended _ _ _ hleft _ ih =>
    rcases sofar with _ | ⟨first, sofar⟩
    · exact List.nil_prefix
    · obtain ⟨rfl, hrest⟩ := List.cons_prefix_cons.1 hs
      rw [List.flatMap_cons, ← hleft]
      exact (List.prefix_append_right_inj _).2 (ih hrest)
  | @refused offer errno _ _ hr =>
    rcases sofar with _ | ⟨first, sofar⟩
    · exact List.nil_prefix
    · obtain ⟨rfl, hrest⟩ := List.cons_prefix_cons.1 hs
      obtain rfl := List.prefix_nil.1 hrest
      rw [List.flatMap_cons, Offer.taken_of_refusal (by rw [hr]; rfl)]
      exact List.nil_prefix

theorem offered (h : Delivers bytes calls ended) {before after : List Offer} {offer : Offer}
    (hc : calls = before ++ offer :: after) :
    before.flatMap Offer.taken ++ offer.bytes = bytes ∧ offer.bytes ≠ [] := by
  induction h generalizing before with
  | underway | finished => simp at hc
  | @goesOn first left rest ended hne _ _ hleft _ ih =>
    rcases before with _ | ⟨other, before⟩
    · obtain ⟨rfl, -⟩ := List.cons.inj hc
      exact ⟨rfl, hne⟩
    · obtain ⟨rfl, hrest⟩ := List.cons.inj hc
      obtain ⟨hall, hoffer⟩ := ih hrest
      refine ⟨?_, hoffer⟩
      rw [List.flatMap_cons, List.append_assoc, hall, hleft]
  | @refused first errno hne _ _ =>
    rcases before with _ | ⟨other, before⟩
    · obtain ⟨rfl, -⟩ := List.cons.inj hc
      exact ⟨rfl, hne⟩
    · simp at hc

theorem silent (h : Delivers bytes calls ended) (he : bytes = []) : calls = [] := by
  cases h with
  | underway | finished => rfl
  | goesOn hne | refused hne => exact absurd he hne

theorem counted (h : Delivers bytes calls ended) : ∀ offer ∈ calls, offer.Modest := by
  induction h with
  | underway | finished => simp
  | goesOn _ hm _ _ _ ih => exact List.forall_mem_cons.2 ⟨hm, ih⟩
  | refused _ hm _ => simpa using hm

theorem last (h : Delivers bytes calls ended) {before after : List Offer} {offer : Offer}
    (hc : calls = before ++ offer :: after) (hr : offer.refusal?.isSome) : after = [] := by
  induction h generalizing before with
  | underway | finished => simp at hc
  | @goesOn first left rest ended _ _ hnone _ _ ih =>
    rcases before with _ | ⟨other, before⟩
    · obtain ⟨rfl, -⟩ := List.cons.inj hc
      rw [hnone] at hr
      cases hr
    · exact ih (List.cons.inj hc).2
  | @refused first errno _ _ _ =>
    rcases before with _ | ⟨other, before⟩
    · exact (List.cons.inj hc).2.symm
    · simp at hc

theorem failed (h : Delivers bytes calls ended) (errno : Errno) :
    ended = some (.error errno) ↔ calls.findSome? Offer.refusal? = some errno := by
  induction h with
  | underway | finished => simp
  | goesOn _ _ hnone _ _ ih => rw [List.findSome?_cons, hnone, ih]
  | refused _ _ hr => simp [hr]

theorem whole (h : Delivers bytes calls ended) (he : ended.isSome) :
    ended = some (.ok ()) ↔ calls.flatMap Offer.taken = bytes := by
  induction h with
  | underway => cases he
  | finished => simp
  | goesOn _ _ _ hleft _ ih => rw [ih he, List.flatMap_cons, ← hleft, List.append_cancel_left_eq]
  | @refused offer errno hne _ hr =>
    -- nothing was taken, but something was left
    rw [List.flatMap_cons, Offer.taken_of_refusal (by rw [hr]; rfl)]
    simpa using hne.symm

theorem delivery (h : Delivers bytes calls ended) : Delivery bytes calls ended where
  inOrder _ := h.inOrder
  offered _ _ _ := h.offered
  silent := h.silent
  counted offer ho _ hr := (h.counted offer ho).length_taken hr
  last _ _ _ := h.last
  failed := h.failed
  whole := h.whole

end Delivers

/-! ## Writing -/

/-- In these states a write takes no more than it is offered. -/
def Host.ModestOn (host : Host σ) (states : σ → Prop) : Prop :=
  ∀ fd bytes state, states state →
    Offer.Modest ⟨bytes, (host.answer (.write fd bytes) state).1⟩

theorem Script.host_modest : Script.host.ModestOn fun _ => True := by
  intro fd bytes script _ count hr
  simp only [host, answer, planned, takeOutcome_eq] at hr
  split at hr
  · cases hr
  · obtain rfl := Except.ok.inj hr
    split
    · rw [List.length_take]
      exact Nat.min_le_right _ _
    · exact Nat.le_refl _

section
variable {host : Host σ} {states : σ → Prop}

/-- The loop that writes is a delivery, under any bound on its rounds. -/
theorem writeRounds_delivers (hm : host.ModestOn states)
    (hw : ∀ fd bytes state, states state → states (host.answer (.write fd bytes) state).2)
    (fd : Descriptor) (limit bound : Nat) (bytes : Bytes) {state : σ} (hin : states state) :
    Delivers bytes (offers fd (writeRounds host fd limit bound bytes state).moves)
      (writeRounds host fd limit bound bytes state).value? := by
  induction bound generalizing bytes state with
  | zero => exact .underway bytes
  | succ bound ih =>
    by_cases hne : bytes = []
    · subst hne
      exact .finished
    rw [writeRounds_succ host fd limit bound hne]
    have hmodest := hm fd bytes state hin
    have hnext := hw fd bytes state hin
    generalize host.answer (.write fd bytes) state = answered at hmodest hnext ⊢
    obtain ⟨reply, next⟩ := answered
    simp only at hmodest hnext ⊢
    rcases ho : writeOutcome bytes reply with left | result
    · obtain ⟨hnone, hleft⟩ := writeOutcome_inl ho
      simpa [Run.value?] using Delivers.goesOn hne hmodest hnone hleft (ih left hnext)
    · obtain ⟨errno, hr, rfl⟩ := writeOutcome_inr ho
      simpa [Run.value?, Run.pure] using Delivers.refused hne hmodest hr

/-- A text is taken byte by byte in its order, each call being offered all that is left; it comes
out well just if all was taken, and otherwise with the first error that is no interruption, or an
error of its own if a call took nothing. As long as no call is interrupted for ever, there is an
outcome; and nothing else is called at any time. -/
theorem writeText_delivers (hs : host.SettlesOn states) (hm : host.ModestOn states)
    (fd : Descriptor) (text : String) {state : σ} (hin : states state) :
    (∃ least, ∀ bound, least ≤ bound →
      (trace host bound (writeText fd text) state).value?.isSome) ∧
    ∀ bound, (trace host bound (writeText fd text) state).Writes fd ∧
      Delivery (Text.encode text) (offers fd (trace host bound (writeText fd text) state).moves)
        (trace host bound (writeText fd text) state).value? := by
  constructor
  · obtain ⟨least, hl⟩ := (writeText_ends hs fd text hin).eventually
    refine ⟨least, fun bound hb => ?_⟩
    obtain ⟨⟨ending, last⟩, hr⟩ := Option.isSome_iff_exists.1 (hl bound hb)
    rcases ending with result | status
    · simp [Run.value?, hr]
    · exact absurd hr ((writeText_writes host bound fd text state).stays status last)
  · intro bound
    refine ⟨writeText_writes host bound fd text state, ?_⟩
    rw [trace_writeText]
    exact (writeRounds_delivers hm hs.write fd bound bound (Text.encode text) hin).delivery

end

/-- A text of three characters: the first call stops within the second of them, the next one is
interrupted, and then one takes nothing. -/
theorem writeText_delivers_broken :
    let script : Script :=
      { plan := [(.write, .value 2), (.write, .failure .eintr), (.write, .value 0)] }
    let run := trace Script.host 8 (writeText .output "né\n") script
    run.Writes .output ∧ Delivery (Text.encode "né\n") (offers .output run.moves) run.value? ∧
      offers .output run.moves = [⟨[0x6e, 0xc3, 0xa9, 0x0a], .ok 2⟩,
        ⟨[0xa9, 0x0a], .error .eintr⟩, ⟨[0xa9, 0x0a], .ok 0⟩] ∧
      run.value? = some (.error .eio) := by
  intro script run
  have h : run.Writes .output ∧
      Delivery (Text.encode "né\n") (offers .output run.moves) run.value? :=
    (writeText_delivers Script.host_stocks_interruptions.settles.settlesOn Script.host_modest
      .output "né\n" trivial).2 8
  exact ⟨h.1, h.2, by decide +kernel, by decide +kernel⟩

end TinyShell
