import Mathlib.Algebra.Group.Nat.Defs
import TinyShell.Proofs.Rehearsal.Execution

/-!
# What a child leaves on the recorder

There is one recorder for all processes, so a child could disturb what its parent relies on.
`Child.Prepares.ends`: it does not. What the shell starts as a child (`Child.Body`) takes
descriptors that nobody had before (`Consecutive`) and may say why it came to no program; besides
this it leaves the record of its parent as it was, and if it came to its program it ends with the
status of that.

All it does before is to prepare (`Child.Body.prepares`), so its messages are never those of a wait
that failed.
-/

namespace TinyShell

open TinyShell.Action (trace Calls Offhand)

variable {σ α : Type}

/-! ## Numbers in a row -/

/-- The numbers count up from `first`, and `next` would be the one after them. -/
def Consecutive : (first : Int32) → List Int32 → (next : Int32) → Prop
  | first, [], next => next = first
  | first, number :: rest, next => number = first ∧ Consecutive (first + 1) rest next

namespace Consecutive

variable {first mid next : Int32} {numbers more : List Int32}

theorem append (h : Consecutive first numbers mid) (h' : Consecutive mid more next) :
    Consecutive first (numbers ++ more) next := by
  induction numbers generalizing first with
  | nil =>
    obtain rfl : mid = first := h
    exact h'
  | cons number rest ih => exact ⟨h.1, ih h.2⟩

theorem eq_pidsFrom (h : Consecutive (first + 1) numbers next) :
    numbers = Recorder.pidsFrom first numbers.length := by
  induction numbers generalizing first with
  | nil => rfl
  | cons number rest ih =>
    obtain ⟨rfl, hrest⟩ := h
    exact congrArg (_ :: ·) (ih hrest)

theorem nodup (h : Consecutive first numbers next) (hlen : numbers.length < Int32.size) :
    numbers.Nodup := by
  have h : Consecutive (first - 1 + 1) numbers next := by rwa [Int32.sub_add_cancel]
  rw [h.eq_pidsFrom]
  exact Recorder.pidsFrom_nodup _ hlen

/-- As long as the numbers do not overflow, all of them are at least the first. -/
theorem le {least : Nat} (h : Consecutive (.ofNat least) numbers next)
    (hlen : least + numbers.length < 2 ^ 31) {number : Int32} (hm : number ∈ numbers) :
    Int32.ofNat least ≤ number := by
  have h : Consecutive (.ofNat least - 1 + 1) numbers next := by rwa [Int32.sub_add_cancel]
  rw [h.eq_pidsFrom] at hm
  obtain ⟨i, hpos, hle, rfl⟩ := Recorder.mem_pidsFrom hm
  obtain ⟨i, rfl⟩ : ∃ j, i = j + 1 := ⟨i - 1, by omega⟩
  have hnumber : Int32.ofNat least - 1 + Int32.ofNat (i + 1) = .ofNat (least + i) := by
    rw [Int32.ofNat_add, Int32.ofNat_add, Int32.add_comm (Int32.ofNat i), ← Int32.add_assoc]
    exact congrArg (· + _) (Int32.sub_add_cancel _ _)
  rw [hnumber, Int32.le_iff_toInt_le, Int32.toInt_ofNat_of_lt (by omega),
    Int32.toInt_ofNat_of_lt (by omega)]
  omega

end Consecutive

mutual

/-- The descriptors that were handed out, also to children. -/
def Move.descriptors : Move σ → List Descriptor
  | .asked _ .pipe (.ok pipe) => [pipe.readEnd, pipe.writeEnd]
  | .asked _ (.openFile ..) (.ok fd) => [fd]
  | .asked .. | .executed .. => []
  | .forked _ _ child => descriptorsOf child

def descriptorsOf : List (Move σ) → List Descriptor
  | [] => []
  | move :: rest => move.descriptors ++ descriptorsOf rest

end

theorem descriptorsOf_nil : descriptorsOf ([] : List (Move σ)) = [] := by rw [descriptorsOf]

theorem descriptorsOf_cons (move : Move σ) (rest : List (Move σ)) :
    descriptorsOf (move :: rest) = move.descriptors ++ descriptorsOf rest := by rw [descriptorsOf]

theorem descriptorsOf_append (first second : List (Move σ)) :
    descriptorsOf (first ++ second) = descriptorsOf first ++ descriptorsOf second := by
  induction first with
  | nil => rw [descriptorsOf_nil, List.nil_append, List.nil_append]
  | cons move rest ih =>
    rw [List.cons_append, descriptorsOf_cons, descriptorsOf_cons, ih, List.append_assoc]

/-! ## What a child asks for -/

namespace Child

/-- Only preparations, and no children. -/
abbrev Prepares (action : Action α) : Prop := Calls Request.IsPreparation (fun _ => False) action

theorem Prepares.rules : Rules @Prepares where
  toRules := Calls.loopRules.toRules
  exec := .exec

theorem Body.prepares {body : Action Status} (h : Body body) : Prepares body :=
  Prepares.rules.body h

end Child

/-! ## The recorder while it answers -/

def Request.isAboutChild : Request → Bool
  | .wait _ | .tryWait _ => true
  | _ => false

def Request.isWrite : Request → Bool
  | .write .. => true
  | _ => false

namespace Recorder

/-- The children that have ended and were not waited for. -/
def kept (recorder : Recorder) : List Pid := recorder.ended.map Prod.fst

variable {recorder : Recorder} {request : Request}

theorem kept_of_none (h : recorder.ended = []) : recorder.kept = [] := by
  rw [kept, h]
  rfl

/-- What an answer can change. -/
theorem answer_frame (request : Request) (recorder : Recorder) :
    ∃ input record nextDescriptor ended, (answer request recorder).2 =
      { recorder with input, record, nextDescriptor, ended } := by
  cases request <;> simp only [answer, ifAwake, collect] <;> (try split) <;>
    exact ⟨_, _, _, _, rfl⟩

/-- Descriptors are handed out in order. -/
theorem answer_descriptors (request : Request) (recorder : Recorder) :
    Consecutive recorder.nextDescriptor
      (Move.descriptors (.asked recorder request (answer request recorder).1))
      (answer request recorder).2.nextDescriptor := by
  have hnone : Move.descriptors (.asked recorder request (answer request recorder).1) = [] →
      (answer request recorder).2.nextDescriptor = recorder.nextDescriptor →
        Consecutive recorder.nextDescriptor
          (Move.descriptors (.asked recorder request (answer request recorder).1))
          (answer request recorder).2.nextDescriptor := by
    intro hd hn
    rw [hd]
    exact hn
  cases request with
  | pipe =>
    refine ⟨rfl, rfl, ?_⟩
    rw [answer, Int32.add_assoc]
    rfl
  | openFile path flags =>
    by_cases hp : path ∈ recorder.badPaths
    · have hreply : answer (.openFile path flags) recorder = (.error .enoent, recorder) := if_pos hp
      rw [hreply]
      rfl
    · have hreply : answer (.openFile path flags) recorder = (.ok recorder.nextDescriptor,
          { recorder.addEvent (.asked (.openFile path flags)) with
            nextDescriptor := recorder.nextDescriptor + 1 }) := if_neg hp
      rw [hreply]
      exact ⟨rfl, rfl⟩
  | _ =>
    refine hnone rfl ?_
    simp only [answer, ifAwake, collect] <;> (try split) <;> rfl

/-- Only waits and looks forget a child. -/
theorem answer_ended (h : request.isAboutChild = false) (recorder : Recorder) :
    (answer request recorder).2.ended = recorder.ended := by
  cases request with
  | wait pid | tryWait pid => cases h
  | _ => simp only [answer, ifAwake] <;> (try split) <;> rfl

/-- Only writes are seen on the output. -/
theorem answer_output (h : request.isWrite = false) (recorder : Recorder) :
    (answer request recorder).2.record.output = recorder.record.output := by
  cases request with
  | write fd bytes => cases h
  | _ => simp only [answer, ifAwake, collect] <;> (try split) <;> rfl

/-- The recorder was not told of a wait that failed. -/
def Content (recorder : Recorder) : Prop :=
  ∀ entry ∈ recorder.record.reports, NoWaitFailure entry.1 entry.2

theorem answer_content (hc : recorder.Content)
    (hr : ∀ level message, request = .report level message → NoWaitFailure level message) :
    (answer request recorder).2.Content := by
  cases request with
  | report level message =>
    simp only [answer]
    split
    · exact hc
    · exact List.forall_mem_append.2 ⟨hc, List.forall_mem_singleton.2 (hr level message rfl)⟩
  | _ =>
    simp only [answer, ifAwake, collect]
    try split
    all_goals exact hc

/-- Between these two states nothing happened but these moves, none of which concerns the parent of
the process. -/
structure Undisturbed (born : Recorder) (moves : List (Move Recorder)) (gone : Recorder) :
    Prop where
  ended : gone.ended = born.ended
  lastPid : gone.lastPid = born.lastPid
  output : gone.record.output = born.record.output
  content : born.Content → gone.Content
  descriptors : Consecutive born.nextDescriptor (descriptorsOf moves) gone.nextDescriptor

namespace Undisturbed

variable {born mid gone : Recorder} {moves : List (Move Recorder)}

theorem refl (recorder : Recorder) : Undisturbed recorder [] recorder :=
  ⟨rfl, rfl, rfl, id, descriptorsOf_nil ▸ rfl⟩

/-- A call to prepare for a program comes first. -/
theorem asked {request : Request} (h : request.IsPreparation)
    (hm : Undisturbed (answer request born).2 moves gone) :
    Undisturbed born (.asked born request (answer request born).1 :: moves) gone := by
  obtain ⟨input, record, nextDescriptor, ended, hframe⟩ := answer_frame request born
  have hchild : request.isAboutChild = false := by cases request <;> first | rfl | cases h
  have hwrite : request.isWrite = false := by cases request <;> first | rfl | cases h
  refine ⟨hm.ended.trans (answer_ended hchild born), hm.lastPid.trans (by rw [hframe]),
    hm.output.trans (answer_output hwrite born), fun hc => hm.content (answer_content hc ?_), ?_⟩
  · rintro level message rfl
    exact h
  · rw [descriptorsOf_cons]
    exact (answer_descriptors request born).append hm.descriptors

theorem executed {program : String} {argv : List String} {result : Except Errno Status}
    (h : Undisturbed born moves gone) :
    Undisturbed born (.executed born program argv result :: moves) gone :=
  { h with descriptors := by rw [descriptorsOf_cons]; exact h.descriptors }

end Undisturbed

end Recorder

open Recorder (Undisturbed)

/-- The process that prepares for a program ends, and if it has become one it ends with the status
of that program. -/
theorem Child.Prepares.ends {action : Action α} (hp : Prepares action) (ho : Offhand action)
    (bound : Nat) {born : Recorder} (hawake : born.replaced = false) :
    ∃ moves ending gone, trace Recorder.host bound action born = ⟨moves, some (ending, gone)⟩ ∧
      Undisturbed born moves gone ∧ (gone.replaced → ending = .exited gone.execStatus) := by
  induction ho generalizing born with
  | done value => exact ⟨[], _, born, rfl, .refl born, by simp [hawake]⟩
  | exit status => exact ⟨[], _, born, rfl, .refl born, by simp [hawake]⟩
  | @ask request next _ _ ih =>
    cases hp with
    | ask hr hn =>
      obtain ⟨_, _, _, _, hframe⟩ := Recorder.answer_frame request born
      obtain ⟨moves, ending, gone, hrun, hu, hgone⟩ :=
        @ih (Recorder.answer request born).1 (hn _) (Recorder.answer request born).2
          (by rw [hframe, hawake])
      refine ⟨_, ending, gone, ?_, hu.asked hr, hgone⟩
      rw [Action.trace_ask]
      exact congrArg (Run.after · _) hrun
  | @exec program argv next _ ih =>
    cases hp with
    | exec hn =>
      by_cases hm : program ∈ born.missing
      · have hexec : Recorder.host.exec program argv born = (.error .enoent, born) := if_pos hm
        obtain ⟨moves, ending, gone, hrun, hu, hgone⟩ := ih .enoent (hn _) hawake
        have hall : trace Recorder.host bound (.exec program argv next) born =
            ⟨.executed born program argv (.error .enoent) :: moves, some (ending, gone)⟩ := by
          rw [Action.trace_exec_error hexec, hrun]
          rfl
        exact ⟨_, ending, gone, hall, hu.executed, hgone⟩
      · have hexec : Recorder.host.exec program argv born = (.ok born.execStatus,
            { born.addEvent (.executed program argv) with replaced := true }) := if_neg hm
        exact ⟨_, _, _, Action.trace_exec_ok hexec, Undisturbed.executed
          ⟨rfl, rfl, rfl, id, descriptorsOf_nil ▸ rfl⟩, fun _ => rfl⟩
  | note _ ih =>
    cases hp with
    | note hn => exact ih hn hawake

/-- The child that was started here ended with this status. -/
def Fork.Left (host : Host σ) (bound : Nat) (fork : Fork σ) (status : Status) : Prop :=
  ∃ body ending gone, Child.Body body ∧
    trace host bound body (host.fork fork.before).2 = ⟨fork.child, some (ending, gone)⟩ ∧
    ending.status = status

end TinyShell
