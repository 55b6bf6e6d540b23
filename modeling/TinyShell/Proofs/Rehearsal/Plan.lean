import TinyShell.Proofs.Action.Hearing
import TinyShell.Rehearsal.Script

/-!
# Scripts run out

A script answers as it was planned, and each outcome is used up by the call that it was planned for
(`Script.Leaves`). So no more reads find something than there are items in the input
(`Script.host_stocks_input`), and no more writes are interrupted than was planned
(`Script.host_stocks_interruptions`).
-/

namespace TinyShell

variable {σ α : Type}

/-- Interruptions that are limited do not go on for ever. -/
theorem Host.Stocks.settles {host : Host σ} {stock : σ → Nat}
    (h : host.Stocks Move.isInterrupted stock) : host.Settles := by
  intro fd bytes state
  induction hn : stock state using Nat.strongRecOn generalizing state with
  | ind n ih =>
    by_cases hi : (host.answer (.write fd bytes) state).1 = .error .eintr
    · have hless := h.answer (.write fd bytes) state
      rw [hi] at hless
      exact .again (ih _ (by simp [Move.isInterrupted] at hless; omega) _ rfl)
    · exact .here hi

namespace Script

variable {script later : Script}

/-- What is left of a script: no more of the input, and a part of the plan. -/
structure Leaves (script later : Script) : Prop where
  input : later.input.length ≤ script.input.length
  plan : later.plan.Sublist script.plan

theorem takeOutcome_eq (script : Script) (kind : CallKind) : script.takeOutcome kind =
    ((script.plan.lookup kind).getD .plain,
      { script with plan := script.plan.eraseP fun entry => entry.1 = kind }) := by
  unfold takeOutcome
  rcases hl : script.plan.lookup kind with _ | outcome
  · have hnone : script.plan.eraseP (fun entry => entry.1 = kind) = script.plan := by
      refine List.eraseP_of_forall_not fun entry hm => ?_
      have hne : kind ≠ entry.1 := bne_iff_ne.1 (List.lookup_eq_none_iff.1 hl entry hm)
      simpa using hne.symm
    rw [hnone]
    rfl
  · rfl

namespace Leaves

theorem refl (script : Script) : script.Leaves script := ⟨Nat.le_refl _, .refl _⟩

theorem addEvent (h : script.Leaves later) (event : Event) :
    script.Leaves (later.addEvent event) := ⟨h.input, h.plan⟩

theorem takeOutcome (script : Script) (kind : CallKind) :
    script.Leaves (script.takeOutcome kind).2 := by
  rw [takeOutcome_eq]
  exact ⟨Nat.le_refl _, List.eraseP_sublist⟩

theorem takeDescriptor (h : script.Leaves later) : script.Leaves later.takeDescriptor.2 := by
  unfold Script.takeDescriptor
  split
  · exact ⟨h.input, h.plan⟩
  · exact ⟨h.input, h.plan⟩

theorem planned {kind : CallKind} {attempt : Attempt}
    {success : Outcome → Script → Except Errno α × Script}
    (h : ∀ outcome later, script.Leaves later → script.Leaves (success outcome later).2) :
    script.Leaves (script.planned kind attempt success).2 := by
  have htake := takeOutcome script kind
  unfold Script.planned
  split
  · rename_i heq
    rw [heq] at htake
    exact htake.addEvent _
  · rename_i heq
    rw [heq] at htake
    exact h _ _ htake

theorem plannedUnit (script : Script) (kind : CallKind) (request : Request) :
    script.Leaves (script.plannedUnit kind request).2 :=
  planned fun _ _ h => h.addEvent _

theorem collect (h : script.Leaves later) (pid : Pid) (outcome : Outcome) :
    script.Leaves (later.collect pid outcome).2 := by
  unfold Script.collect
  split
  · exact ⟨h.input, h.plan⟩
  · exact ⟨h.input, h.plan⟩
  · exact ⟨h.input, h.plan⟩

end Leaves

/-! ## Calls -/

theorem takeBytes_leaves (count : Nat) (items : List InputItem) :
    (InputItem.takeBytes count items).2.length + (InputItem.takeBytes count items).1.length =
      items.length := by
  induction count, items using InputItem.takeBytes.induct with
  | case1 count byte rest ih =>
    simp only [InputItem.takeBytes, List.length_cons]
    omega
  | case2 count items h => simp [InputItem.takeBytes]

/-- A read that finds something takes it from the input. -/
theorem read_takes (script : Script) (count : Nat) :
    (script.read count).2.plan = script.plan ∧ (script.read count).2.input.length +
      (!Reading.isEnd (script.read count).1).toNat ≤ script.input.length := by
  unfold Script.read
  split
  · exact ⟨rfl, Nat.le_refl _⟩
  · split
    · rename_i h
      simp [h, Reading.isEnd]
    · rename_i h
      simp [h, Reading.isEnd]
    · refine ⟨rfl, ?_⟩
      have htake := takeBytes_leaves count script.input
      rcases hb : (InputItem.takeBytes count script.input).1 with _ | ⟨byte, rest⟩ <;>
        simp [hb, Reading.isEnd] at htake ⊢ <;> omega

theorem answer_leaves (request : Request) (script : Script) :
    script.Leaves (script.answer request).2 := by
  cases request with
  | pipe => exact .planned fun _ _ h => h.takeDescriptor.takeDescriptor.addEvent _
  | duplicate | close | changeDirectory => exact .plannedUnit script _ _
  | openFile => exact .planned fun _ _ h => h.takeDescriptor.addEvent _
  | read fd count =>
    obtain ⟨hplan, hinput⟩ := read_takes script count
    exact ⟨Nat.le_trans (Nat.le_add_right _ _) hinput, hplan ▸ .refl _⟩
  | write =>
    refine .planned fun _ _ h => ?_
    simp only
    split
    · exact ⟨h.input, h.plan⟩
    · exact h
  | wait =>
    exact .planned fun _ _ h => (h.addEvent _).collect _ _
  | tryWait =>
    refine .planned fun _ _ h => ?_
    simp only
    split
    · exact h.addEvent _
    · exact (h.addEvent _).collect _ _
  | processId => exact .refl script
  | report =>
    simp only [Script.answer]
    split
    · exact .refl script
    · exact ⟨Nat.le_refl _, .refl _⟩

theorem exec_leaves (program : String) (argv : List String) (script : Script) :
    script.Leaves (script.exec program argv).2 :=
  .planned fun _ _ h => ⟨h.input, h.plan⟩

theorem fork_leaves (script : Script) : script.Leaves script.fork.2 :=
  .planned fun _ _ h => ⟨h.input, h.plan⟩

/-! ## Stocks -/

/-- What is less in a script the later it is, and less by the calls that are marked. -/
theorem host_stocks {marked : Move Script → Bool} {stock : Script → Nat}
    (hl : ∀ script later, script.Leaves later → stock later ≤ stock script)
    (hasked : ∀ request script, marked (.asked script request (script.answer request).1) →
      stock (script.answer request).2 < stock script)
    (hexec : ∀ before program argv result, marked (.executed before program argv result) = false)
    (hfork : ∀ before result child, marked (.forked before result child) = false) :
    host.Stocks marked stock where
  answer request script := by
    cases hm : marked (.asked script request (script.answer request).1) with
    | true =>
      change stock (script.answer request).2 +
        (marked (.asked script request (script.answer request).1)).toNat ≤ _
      rw [hm]
      exact hasked request script hm
    | false => simpa [host, hm] using hl _ _ (answer_leaves request script)
  exec program argv script := by
    simpa [host, hexec] using hl _ _ (exec_leaves program argv script)
  fork script child := by simpa [host, hfork] using hl _ _ (fork_leaves script)
  join parent child pid status := by
    have hchild : child.Leaves (child.finish pid status) := ⟨Nat.le_refl _, .refl _⟩
    exact Nat.le_trans (hl _ _ hchild) (Nat.le_max_right _ _)
  note _ _ := Nat.le_refl _

/-- Each read that finds something takes an item of the input. -/
theorem host_stocks_input : host.Stocks Move.findsInput fun script => script.input.length := by
  refine host_stocks (fun _ _ h => h.input) (fun request script hm => ?_) (fun _ _ _ _ => rfl)
    fun _ _ _ => rfl
  cases request with
  | read fd count =>
    have hend : Reading.isEnd (script.read count).1 = false := by
      by_cases hfd : fd = .input
      · simpa [Move.findsInput, Move.heard?, hfd, answer] using hm
      · simp [Move.findsInput, Move.heard?, hfd] at hm
    have htake := (read_takes script count).2
    rw [hend] at htake
    exact htake
  | _ => cases hm

/-- The first outcome of a kind is gone once it was taken. -/
theorem count_eraseP {plan : List (CallKind × Outcome)} {kind : CallKind} {outcome : Outcome}
    (h : plan.lookup kind = some outcome) :
    (plan.eraseP fun entry => entry.1 = kind).count (kind, outcome) <
      plan.count (kind, outcome) := by
  induction plan with
  | nil => cases h
  | cons entry rest ih =>
    obtain ⟨other, planned⟩ := entry
    by_cases ho : other = kind
    · subst ho
      obtain rfl : planned = outcome := by simpa using h
      simp
    · have hrest : rest.lookup kind = some outcome := by
        rwa [List.lookup_cons, beq_false_of_ne (Ne.symm ho)] at h
      rw [List.eraseP_cons_of_neg (by simpa using ho), List.count_cons, List.count_cons]
      exact Nat.add_lt_add_right (ih hrest) _

/-- Each write that is interrupted was planned so. -/
theorem host_stocks_interruptions : host.Stocks Move.isInterrupted fun script =>
    script.plan.count (.write, .failure .eintr) := by
  refine host_stocks (fun _ _ h => h.plan.count_le _) (fun request script hm => ?_)
    (fun _ _ _ _ => rfl) fun _ _ _ => rfl
  cases request with
  | write fd bytes =>
    simp only [answer, Script.planned, takeOutcome_eq] at hm ⊢
    rcases hl : script.plan.lookup .write with _ | _ | errno | value | _ <;>
      simp only [hl, Option.getD] at hm ⊢ <;> try cases hm
    obtain rfl : errno = .eintr := by
      cases errno <;> first | rfl | cases hm
    exact count_eraseP hl
  | _ => cases hm

end Script

end TinyShell
