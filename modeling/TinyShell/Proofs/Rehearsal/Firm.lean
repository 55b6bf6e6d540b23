import TinyShell.Proofs.Action.Heedless
import TinyShell.Proofs.Rehearsal.Plan

/-!
# Scripts that agree

What was planned for writes and closes has no part in how a script answers other calls. So two
scripts that differ in nothing else agree as systems (`Script.host_agrees`).
-/

namespace TinyShell

variable {α : Type}

/-- Calls that are neither writes nor closes. -/
def CallKind.isFirm (kind : CallKind) : Bool := kind ≠ .write ∧ kind ≠ .close

namespace Script

/-- What was planned for calls that are neither writes nor closes. -/
def firmPlan (plan : List (CallKind × Outcome)) : List (CallKind × Outcome) :=
  plan.filter fun entry => entry.1.isFirm

/-- The scripts differ at most in their records, and in what was planned for writes and closes. -/
structure Agrees (script other : Script) : Prop where
  input : script.input = other.input
  descriptors : script.descriptors = other.descriptors
  plan : firmPlan script.plan = firmPlan other.plan
  nextDescriptor : script.nextDescriptor = other.nextDescriptor
  lastPid : script.lastPid = other.lastPid
  ended : script.ended = other.ended
  replaced : script.replaced = other.replaced

/-- Scripts that agree are answered alike, and agree afterwards. -/
def Agreeing (answer : Script → α × Script) : Prop :=
  ∀ script other, script.Agrees other →
    (answer script).1 = (answer other).1 ∧ (answer script).2.Agrees (answer other).2

/-! ## Plans -/

theorem lookup_firmPlan (plan : List (CallKind × Outcome)) {kind : CallKind} (hk : kind.isFirm) :
    (firmPlan plan).lookup kind = plan.lookup kind := by
  induction plan with
  | nil => rfl
  | cons entry rest ih =>
    obtain ⟨other, outcome⟩ := entry
    by_cases ho : kind = other
    · subst ho
      rw [firmPlan, List.filter_cons, if_pos hk, List.lookup_cons_self, List.lookup_cons_self]
    · have hne : (kind == other) = false := beq_false_of_ne ho
      rw [firmPlan, List.filter_cons, List.lookup_cons, hne]
      split
      · rw [List.lookup_cons, hne]
        exact ih
      · exact ih

theorem firmPlan_eraseP (plan : List (CallKind × Outcome)) {kind : CallKind} (hk : kind.isFirm) :
    firmPlan (plan.eraseP fun entry => entry.1 = kind) =
      (firmPlan plan).eraseP fun entry => entry.1 = kind := by
  rw [firmPlan, firmPlan, List.eraseP_filter]
  congr 2
  funext entry
  by_cases he : entry.1 = kind
  · simp [he, hk]
  · simp [he]

theorem firmPlan_eraseP_other (plan : List (CallKind × Outcome)) {kind : CallKind}
    (hk : kind.isFirm = false) :
    firmPlan (plan.eraseP fun entry => entry.1 = kind) = firmPlan plan := by
  induction plan with
  | nil => rfl
  | cons entry rest ih =>
    by_cases he : entry.1 = kind
    · rw [List.eraseP_cons_of_pos (by simpa using he), firmPlan, firmPlan,
        List.filter_cons_of_neg (by simp [he, hk])]
    · rw [List.eraseP_cons_of_neg (by simpa using he), firmPlan, firmPlan, List.filter_cons,
        List.filter_cons]
      cases entry.1.isFirm with
      | true => exact congrArg (entry :: ·) ih
      | false => exact ih

theorem agreeing_takeOutcome {kind : CallKind} (hk : kind.isFirm) :
    Agreeing fun script => script.takeOutcome kind := by
  intro script other h
  simp only [takeOutcome_eq]
  refine ⟨?_, { h with plan := ?_ }⟩
  · rw [← lookup_firmPlan script.plan hk, h.plan, lookup_firmPlan other.plan hk]
  · rw [firmPlan_eraseP _ hk, firmPlan_eraseP _ hk, h.plan]

theorem Agreeing.planned {kind : CallKind} {attempt : Attempt}
    {success : Outcome → Script → Except Errno α × Script} (hk : kind.isFirm)
    (hs : ∀ outcome, Agreeing (success outcome)) :
    Agreeing fun script => script.planned kind attempt success := by
  intro script other h
  have htake : (script.takeOutcome kind).1 = (other.takeOutcome kind).1 ∧
      (script.takeOutcome kind).2.Agrees (other.takeOutcome kind).2 :=
    agreeing_takeOutcome hk script other h
  simp only [Script.planned]
  generalize script.takeOutcome kind = taken, other.takeOutcome kind = taken' at htake ⊢
  obtain ⟨outcome, later⟩ := taken
  obtain ⟨outcome', later'⟩ := taken'
  obtain ⟨rfl, hlater⟩ : outcome = outcome' ∧ later.Agrees later' := htake
  cases outcome with
  | failure errno => exact ⟨rfl, { hlater with }⟩
  | plain | value | running => exact hs _ later later' hlater

/-! ## Calls -/

theorem agreeing_takeDescriptor : Agreeing takeDescriptor := by
  intro script other h
  simp only [takeDescriptor, ← h.descriptors, ← h.nextDescriptor]
  cases script.descriptors with
  | nil => exact ⟨rfl, { h with descriptors := rfl, nextDescriptor := rfl }⟩
  | cons fd rest => exact ⟨rfl, { h with descriptors := rfl, nextDescriptor := rfl }⟩

theorem agreeing_collect (pid : Pid) (outcome : Outcome) :
    Agreeing fun script => script.collect pid outcome := by
  intro script other h
  simp only [collect, ← h.ended]
  cases outcome <;> cases script.ended.lookup pid <;> exact ⟨rfl, { h with ended := rfl }⟩

theorem agreeing_read (count : Nat) : Agreeing fun script => script.read count := by
  intro script other h
  simp only [Script.read, ← h.input]
  split
  · exact ⟨rfl, h⟩
  · split <;> exact ⟨rfl, { h with input := rfl }⟩

theorem agreeing_answer {request : Request} (hh : request.isHeeded) :
    Agreeing (answer request) := by
  cases request with
  | write | close => cases hh
  | pipe =>
    refine .planned rfl fun _ script other h => ?_
    obtain ⟨hfd, hlater⟩ := agreeing_takeDescriptor script other h
    obtain ⟨hfd', hlater'⟩ := agreeing_takeDescriptor _ _ hlater
    exact ⟨congrArg Except.ok (congr (congrArg Pipe.mk hfd) hfd'), { hlater' with }⟩
  | duplicate | changeDirectory => exact .planned rfl fun _ _ _ h => ⟨rfl, { h with }⟩
  | openFile =>
    refine .planned rfl fun _ script other h => ?_
    obtain ⟨hfd, hlater⟩ := agreeing_takeDescriptor script other h
    exact ⟨congrArg Except.ok hfd, { hlater with }⟩
  | read fd count => exact agreeing_read count
  | wait pid => exact .planned rfl fun _ _ _ h => agreeing_collect pid _ _ _ { h with }
  | tryWait pid =>
    refine .planned rfl fun outcome script other h => ?_
    simp only
    split
    · exact ⟨rfl, { h with }⟩
    · have hasked : (script.addEvent (.asked (.tryWait pid))).Agrees
          (other.addEvent (.asked (.tryWait pid))) := { h with }
      obtain ⟨hresult, hlater⟩ := agreeing_collect pid outcome _ _ hasked
      exact ⟨congrArg (Except.map some) hresult, hlater⟩
  | processId => exact fun _ _ h => ⟨rfl, h⟩
  | report =>
    intro script other h
    simp only [answer, ← h.replaced, true_and]
    split
    · exact h
    · exact { h with replaced := rfl }

theorem agreeing_exec (program : String) (argv : List String) : Agreeing (exec program argv) :=
  .planned rfl fun _ _ _ h => ⟨rfl, { h with replaced := rfl }⟩

theorem agreeing_fork : Agreeing fork := by
  refine .planned rfl fun _ script other h => ?_
  simp only [← h.lastPid, true_and]
  exact { h with lastPid := rfl }

/-! ## Writes and closes -/

theorem Agrees.symm {script other : Script} (h : script.Agrees other) : other.Agrees script :=
  ⟨h.input.symm, h.descriptors.symm, h.plan.symm, h.nextDescriptor.symm, h.lastPid.symm,
    h.ended.symm, h.replaced.symm⟩

/-- Of a write or a close nothing remains but in the record. -/
theorem Agrees.planned {script other : Script} {kind : CallKind} {attempt : Attempt}
    {success : Outcome → Script → Except Errno α × Script} (hk : kind.isFirm = false)
    (hs : ∀ outcome later, later.Agrees other → (success outcome later).2.Agrees other)
    (h : script.Agrees other) : (script.planned kind attempt success).2.Agrees other := by
  have hlater : (script.takeOutcome kind).2.Agrees other := by
    rw [takeOutcome_eq]
    exact { h with plan := (firmPlan_eraseP_other _ hk).trans h.plan }
  simp only [Script.planned]
  generalize script.takeOutcome kind = taken at hlater ⊢
  obtain ⟨outcome, later⟩ := taken
  cases outcome with
  | failure errno => exact { hlater with }
  | plain | value | running => exact hs _ later hlater

theorem Agrees.write {script other : Script} (h : script.Agrees other) (fd : Descriptor)
    (bytes : Text.Bytes) : (script.answer (.write fd bytes)).2.Agrees other := by
  refine h.planned rfl fun outcome later hlater => ?_
  simp only
  split
  · exact { hlater with }
  · exact hlater

theorem Agrees.close {script other : Script} (h : script.Agrees other) (fd : Descriptor) :
    (script.answer (.close fd)).2.Agrees other :=
  h.planned rfl fun _ _ hlater => { hlater with }

/-- Scripts that agree are systems that agree. -/
theorem host_agrees : host.Agrees host Agrees where
  answer hh h := agreeing_answer hh _ _ h
  close h := ((h.close _).symm.close _).symm
  write h := ⟨h.write _ _, (h.symm.write _ _).symm⟩
  settled _ := ⟨host_stocks_interruptions.settles _ _ _, host_stocks_interruptions.settles _ _ _⟩
  exec h := agreeing_exec _ _ _ _ h
  fork h := agreeing_fork _ _ h
  join _ h := by
    simp only [host, finish, h.replaced, h.ended]
    exact { h with replaced := rfl, ended := rfl }
  note h := ⟨h, h⟩

end Script

end TinyShell
