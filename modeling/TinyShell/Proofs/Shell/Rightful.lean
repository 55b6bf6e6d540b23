import TinyShell.Proofs.Shell.Custody

/-!
# Waits and looks are for children that are out

`Shell.Lives.rightful`: a shell that began without children waits for a child, or looks at one, only
after its start and before the child is done with, as long as no child gets the number of one that
is out. So a system that keeps what has ended until someone asks for it has an answer each time.

As in `Custody`, it is one deed that has to be looked at (`Shell.Minds.rightful`).
-/

namespace TinyShell

variable {σ : Type}

/-- Each wait and each look is for a child that is out. -/
def Rightful : List Pid → List Act → Prop
  | _, [] => True
  | before, act :: rest =>
    (∀ pid, act.concerns pid → pid ∈ before) ∧ Rightful (act.out before) rest

section
variable {before : List Pid} {first second acts : List Act} {act : Act} {pid : Pid}

theorem rightful_append :
    Rightful before (first ++ second) ↔
      Rightful before first ∧ Rightful (outAfter before first) second := by
  induction first generalizing before with
  | nil => exact ⟨fun h => ⟨trivial, h⟩, fun h => h.2⟩
  | cons act rest ih =>
    rw [List.cons_append, Rightful, Rightful, ih, and_assoc]
    rfl

theorem Act.concerns_of_settles (h : act.settles pid) : act.concerns pid := by
  cases act with
  | awaited other => exact h
  | polled other look =>
    simp only [settles, concludes, Bool.and_eq_true] at h
    exact h.1
  | started | refused => cases h

theorem Act.mem_out : pid ∈ act.out before ↔
    act.started? = some pid ∨ pid ∈ before ∧ act.settles pid = false := by
  simp [out]

/-- Acts that are each about another child, all of them out. -/
theorem rightful_of_pairwise
    (hp : acts.Pairwise fun act later => ∀ pid, act.concerns pid → later.concerns pid = false)
    (h : ∀ act ∈ acts, ∀ pid, act.concerns pid → pid ∈ before) : Rightful before acts := by
  induction acts generalizing before with
  | nil => trivial
  | cons act rest ih =>
    obtain ⟨hact, hrest⟩ := List.forall_mem_cons.1 h
    obtain ⟨hapart, hpairs⟩ := List.pairwise_cons.1 hp
    refine ⟨hact, ih hpairs fun later hl pid hc => ?_⟩
    refine Act.mem_out.2 (.inr ⟨hrest later hl pid hc, ?_⟩)
    by_contra hs
    have := hapart later hl pid (Act.concerns_of_settles (by simpa using hs))
    simp [hc] at this

/-- A start is no wait and no look. -/
theorem rightful_started (pids : List Pid) : Rightful before (pids.map .started) :=
  rightful_of_pairwise (List.pairwise_map.2 (List.pairwise_of_forall (by simp [Act.concerns])))
    (List.forall_mem_map.2 (by simp [Act.concerns]))

/-- Children with numbers of their own are new each time. -/
theorem fresh_of_nodup (hn : (acts.filterMap Act.started?).Nodup)
    (h : ∀ pid ∈ before, pid ∉ acts.filterMap Act.started?) : Fresh before acts := by
  induction acts generalizing before with
  | nil => trivial
  | cons act rest ih =>
    have hstart (pid : Pid) (hs : act.started? = some pid) :
        pid ∉ before ∧ pid ∉ rest.filterMap Act.started? := by
      rw [List.filterMap_cons_some hs] at hn h
      exact ⟨fun hb => h pid hb List.mem_cons_self, (List.nodup_cons.1 hn).1⟩
    refine ⟨fun pid hs => (hstart pid hs).1, ih ?_ fun pid hout => ?_⟩
    · refine hn.sublist ?_
      rw [List.filterMap_cons]
      split
      · exact .refl _
      · exact List.sublist_cons_self ..
    · rcases Act.mem_out.1 hout with hs | ⟨hb, -⟩
      · exact (hstart pid hs).2
      · refine fun hm => h pid hb ?_
        rw [List.filterMap_cons]
        split
        · exact hm
        · exact List.mem_cons_of_mem _ hm

theorem career_sublist (pid : Pid) (acts : List Act) : (career pid acts).Sublist acts := by
  induction acts with
  | nil => exact .refl _
  | cons act rest ih =>
    rw [career]
    split
    · exact List.nil_sublist _
    split
    · exact ih.cons_cons act
    · exact ih.cons act

/-- The career of a child whose number is not used again. -/
theorem career_eq_filter (h : .started pid ∉ acts) :
    career pid acts = acts.filter (Act.concerns pid) := by
  induction acts with
  | nil => rfl
  | cons act rest ih =>
    obtain ⟨hact, hrest⟩ := not_or.1 (mt List.mem_cons.2 h)
    have hother : act.started? ≠ some pid := by
      cases act with
      | started other =>
        intro hs
        exact hact (by rw [Option.some.inj hs])
      | _ => nofun
    rw [career, if_neg hother, List.filter_cons, ih hrest]

end

namespace Shell

section
variable {shell after : Shell} {deed : Deed} {acts : List Act} {texts : List String}
  {out : List Pid}

/-- A deed waits for children of its own, and looks at those that the shell tracks. -/
theorem Minds.rightful (h : shell.Minds deed acts texts after) (hh : shell.Holds out)
    (hf : Fresh out acts) : Rightful out acts := by
  cases h with
  | @launched command pids _ _ _ => exact rightful_started pids
  | @awaited command pids failed _ _ _ =>
    rw [List.append_assoc, fresh_append] at hf
    obtain ⟨hn, -, hmem⟩ := fresh_started hf.1
    rw [List.append_assoc, rightful_append]
    refine ⟨rightful_started pids, rightful_of_pairwise ?_ ?_⟩
    · refine List.pairwise_append.2 ⟨?_, ?_, ?_⟩
      · cases failed <;> simp [refusal]
      · refine List.pairwise_map.2 (hn.imp fun hne pid hc => ?_)
        simp only [Act.concerns, decide_eq_true_eq, decide_eq_false_iff_not] at hc ⊢
        exact fun he => hne (hc.trans he.symm)
      · cases failed <;> simp [refusal, Act.concerns]
    · refine forall_mem_waits (by simp [Act.concerns]) (fun other ho pid hc => ?_) failed
      obtain rfl : other = pid := by simpa [Act.concerns] using hc
      exact (hmem other).2 (.inl ho)
  | @reaped looks _ hpids _ =>
    have hn := hh.nodup
    rw [← hpids] at hn
    refine rightful_of_pairwise (List.pairwise_map.2 ?_) (List.forall_mem_map.2 ?_)
    · refine (List.pairwise_map.1 hn).imp fun hne pid hc => ?_
      simp only [Act.concerns, decide_eq_true_eq, decide_eq_false_iff_not] at hc ⊢
      exact fun he => hne (hc.trans he.symm)
    · intro look hl pid hc
      obtain rfl : look.1 = pid := by simpa [Act.concerns] using hc
      exact hh.out _ (hpids ▸ List.mem_map_of_mem hl)
  | prompted | took | left => trivial

end

section
variable {host : Host σ} {bound : Nat} {due : Deed → Shell → Prop} {shell after : Shell}
  {state last : σ} {episodes : List (Episode σ)} {out : List Pid} {pid : Pid}

theorem Lives.rightful (h : Lives host bound due shell state episodes after last)
    (hh : shell.Holds out) (hf : Fresh out (dealings (Episode.allMoves episodes))) :
    Rightful out (dealings (Episode.allMoves episodes)) := by
  induction h generalizing out with
  | rest => trivial
  | act hs _ ht _ ih =>
    obtain ⟨texts, -, hm⟩ := minds_of_trace hs ht
    rw [dealings_cons] at hf ⊢
    obtain ⟨hdeed, hrest⟩ := fresh_append.1 hf
    exact rightful_append.2 ⟨hm.rightful hh hdeed, ih (hm.holds hh hdeed) hrest⟩

/-- A tracked child is tracked on until a look concludes it. -/
theorem mem_trackedFrom {before : List Pid} (hp : pid ∈ before)
    (h : ∀ e ∈ episodes, ∀ act ∈ dealings e.moves, act.concludes pid = false) :
    pid ∈ trackedFrom before episodes := by
  induction episodes generalizing before with
  | nil => exact hp
  | cons e rest ih =>
    obtain ⟨hfirst, hrest⟩ := List.forall_mem_cons.1 h
    refine ih (List.mem_append_left _ (List.mem_filter.2 ⟨hp, ?_⟩)) hrest
    have hnone : (dealings e.moves).any (Act.concludes pid) = false :=
      List.any_eq_false.2 fun act ha => by simp [hfirst act ha]
    rw [hnone]
    rfl

end

end Shell

end TinyShell
