import Mathlib.Data.List.Nodup
import TinyShell.Proofs.Shell.Dealings

/-!
# Children are accounted for

A shell starts children, waits for some and tracks the others until a look at them shows that they
have ended. `Shell.children_accounted`: in a session, or while it follows orders, a shell loses none
of its children and takes none for another, as long as the system does not give the number of a
child that is still out to a new one (`Fresh`).

* `tracked`: the children that are to be tracked, by the history of the deeds. The shell has exactly
  these, in order and none of them twice.
* `career`: what becomes of a child after its start. One in the background is looked at until it has
  ended (`Watched`), and never waited for; any other is waited for once, and that is all.
-/

namespace TinyShell

open TinyShell.Action (trace)

variable {σ : Type}

/-! ## Children that are out -/

namespace Act

def started? : Act → Option Pid
  | started pid => some pid
  | _ => none

/-- A look that shows more than that the child still runs. -/
def concludes (pid : Pid) : Act → Bool
  | polled other look => other = pid && !stillRuns look
  | _ => false

/-- The child is done with: it was waited for, or looked at for the last time. -/
def settles (pid : Pid) : Act → Bool
  | awaited other => other = pid
  | act => act.concludes pid

/-- The children that are out after an act. -/
def out (act : Act) (before : List Pid) : List Pid :=
  act.started?.toList ++ before.filter fun pid => !act.settles pid

end Act

/-- The children that are out after some acts. -/
def outAfter (before : List Pid) (acts : List Act) : List Pid :=
  acts.foldl (fun before act => act.out before) before

/-- No child gets the number of one that is out. -/
def Fresh : List Pid → List Act → Prop
  | _, [] => True
  | before, act :: rest => (∀ pid ∈ act.started?, pid ∉ before) ∧ Fresh (act.out before) rest

instance decidableFresh : (before : List Pid) → (acts : List Act) → Decidable (Fresh before acts)
  | _, [] => .isTrue trivial
  | before, act :: rest =>
    -- The instance is given: another one goes through every number there is.
    have : Decidable (∀ pid ∈ act.started?, pid ∉ before) :=
      Option.decidableForallMem act.started?
    have := decidableFresh (act.out before) rest
    inferInstanceAs (Decidable ((∀ pid ∈ act.started?, pid ∉ before) ∧ Fresh (act.out before) rest))

section
variable {before : List Pid} {first second acts : List Act} {pid : Pid}

theorem outAfter_append :
    outAfter before (first ++ second) = outAfter (outAfter before first) second :=
  List.foldl_append

theorem fresh_append :
    Fresh before (first ++ second) ↔ Fresh before first ∧ Fresh (outAfter before first) second := by
  induction first generalizing before with
  | nil => exact ⟨fun h => ⟨trivial, h⟩, fun h => h.2⟩
  | cons act rest ih =>
    rw [List.cons_append, Fresh, Fresh, ih, and_assoc]
    rfl

/-- Without a start, those that are out are those that no act settles. -/
theorem mem_outAfter (h : ∀ act ∈ acts, act.started? = none) :
    pid ∈ outAfter before acts ↔ pid ∈ before ∧ ∀ act ∈ acts, act.settles pid = false := by
  induction acts generalizing before with
  | nil => simp [outAfter]
  | cons act rest ih =>
    obtain ⟨hact, hrest⟩ := List.forall_mem_cons.1 h
    have hstep : pid ∈ outAfter before (act :: rest) ↔ pid ∈ outAfter (act.out before) rest := .rfl
    rw [hstep, ih hrest, Act.out, hact, List.forall_mem_cons]
    simp [and_assoc]

/-- Children started in a row are new, and new to each other, and they are all out then. -/
theorem fresh_started {pids : List Pid} (h : Fresh before (pids.map .started)) :
    pids.Nodup ∧ (∀ pid ∈ pids, pid ∉ before) ∧
      ∀ pid, pid ∈ outAfter before (pids.map .started) ↔ pid ∈ pids ∨ pid ∈ before := by
  induction pids generalizing before with
  | nil => exact ⟨.nil, by simp, by simp [outAfter]⟩
  | cons pid rest ih =>
    obtain ⟨hpid, hrest⟩ := h
    have hout : (Act.started pid).out before = pid :: before := by
      simp [Act.out, Act.started?, Act.settles, Act.concludes]
    rw [hout] at hrest
    obtain ⟨hnodup, hnew, hmem⟩ := ih hrest
    refine ⟨List.nodup_cons.2 ⟨fun hm => hnew pid hm List.mem_cons_self, hnodup⟩, ?_, ?_⟩
    · refine List.forall_mem_cons.2 ⟨hpid pid rfl, fun other ho hb => ?_⟩
      exact hnew other ho (List.mem_cons_of_mem _ hb)
    · intro other
      have hstep : other ∈ outAfter before ((pid :: rest).map .started) ↔
          other ∈ outAfter ((Act.started pid).out before) (rest.map .started) := .rfl
      rw [hstep, hout, hmem, List.mem_cons, List.mem_cons, or_left_comm, or_assoc]

end

/-! ## Careers -/

namespace Act

/-- The act is about this child, and not its start. -/
def concerns (pid : Pid) : Act → Bool
  | awaited other => other = pid
  | polled other _ => other = pid
  | started _ | refused => false

end Act

/-- What becomes of a child: all that concerns its number, until the number is given to another
child. -/
def career (pid : Pid) : List Act → List Act
  | [] => []
  | act :: rest =>
    if act.started? = some pid then [] else
      if act.concerns pid then act :: career pid rest else career pid rest

/-- The career of a child in the background: looks until one shows more than that it still runs. -/
inductive Watched (pid : Pid) : List Act → Prop
  | nothing : Watched pid []
  | still {rest : List Act} : Watched pid rest → Watched pid (.polled pid (.ok none) :: rest)
  | settled {look : Look} : stillRuns look = false → Watched pid [.polled pid look]

section
variable {pid : Pid} {rest : List Act}

theorem career_started (pids : List Pid) (rest : List Act) :
    career pid (pids.map .started ++ rest) = if pid ∈ pids then [] else career pid rest := by
  induction pids with
  | nil => simp
  | cons other others ih =>
    rw [List.map_cons, List.cons_append, career, ih]
    by_cases h : other = pid
    · simp [Act.started?, h]
    · simp [Act.started?, Act.concerns, h, Ne.symm h]

theorem career_refusal (failed : Bool) : career pid (refusal failed ++ rest) = career pid rest := by
  cases failed <;> simp [refusal, career, Act.started?, Act.concerns]

theorem career_awaited_of_not_mem {pids : List Pid} (h : pid ∉ pids) :
    career pid (pids.map .awaited ++ rest) = career pid rest := by
  induction pids with
  | nil => rfl
  | cons other others ih =>
    obtain ⟨hne, hrest⟩ := not_or.1 (mt List.mem_cons.2 h)
    rw [List.map_cons, List.cons_append, career]
    simp [Act.started?, Act.concerns, Ne.symm hne, ih hrest]

/-- Of the waits for several children, one is for this one. -/
theorem career_awaited {pids : List Pid} (hn : pids.Nodup) (h : pid ∈ pids) :
    career pid (pids.map .awaited ++ rest) = .awaited pid :: career pid rest := by
  induction pids with
  | nil => cases h
  | cons other others ih =>
    obtain ⟨hnot, hothers⟩ := List.nodup_cons.1 hn
    rw [List.map_cons, List.cons_append, career]
    by_cases he : other = pid
    · subst he
      simp [Act.started?, Act.concerns, career_awaited_of_not_mem hnot]
    · have hm : pid ∈ others := (List.mem_cons.1 h).resolve_left (Ne.symm he)
      simp [Act.started?, Act.concerns, he, ih hothers hm]

theorem career_polled_of_not_mem {looks : List (Pid × Look)} (h : pid ∉ looks.map Prod.fst) :
    career pid (looks.map (fun look => .polled look.1 look.2) ++ rest) = career pid rest := by
  induction looks with
  | nil => rfl
  | cons look others ih =>
    obtain ⟨hne, hrest⟩ := not_or.1 (mt List.mem_cons.2 h)
    rw [List.map_cons, List.cons_append, career]
    simp [Act.started?, Act.concerns, Ne.symm hne, ih hrest]

/-- Of a look at several children, one is at this one. -/
theorem career_polled {looks : List (Pid × Look)} (hn : (looks.map Prod.fst).Nodup) {look : Look}
    (h : (pid, look) ∈ looks) :
    career pid (looks.map (fun look => .polled look.1 look.2) ++ rest) =
      .polled pid look :: career pid rest := by
  induction looks with
  | nil => cases h
  | cons other others ih =>
    obtain ⟨hnot, hothers⟩ := List.nodup_cons.1 hn
    rw [List.map_cons, List.cons_append, career]
    rcases List.mem_cons.1 h with rfl | hm
    · simp [Act.started?, Act.concerns, career_polled_of_not_mem hnot]
    · have hne : other.1 ≠ pid := fun he => hnot (he ▸ List.mem_map_of_mem hm)
      simp [Act.started?, Act.concerns, hne, ih hothers hm]

end

namespace Shell

/-! ## One deed -/

def Deed.isBackground : Deed → Bool
  | run command => command.isBackground
  | _ => false

/-- The children that a deed launched to be tracked: those of a command for the background, unless
one of them could not be started. -/
def launchedBy (deed : Deed) (acts : List Act) : List Pid :=
  if deed.isBackground ∧ .refused ∉ acts then acts.filterMap Act.started? else []

/-- The children to be tracked after a deed, from those before. -/
def trackedAfter (before : List Pid) (deed : Deed) (acts : List Act) : List Pid :=
  before.filter (fun pid => !acts.any (Act.concludes pid)) ++ launchedBy deed acts

/-- The shell tracks its children once each, and all of them are out. -/
structure Holds (shell : Shell) (out : List Pid) : Prop where
  nodup : shell.background.Nodup
  out : ∀ pid ∈ shell.background, pid ∈ out

section
variable {shell after : Shell} {deed : Deed} {acts : List Act} {texts : List String}

theorem launchedBy_started {command : Command} (h : command.isBackground) (pids : List Pid) :
    launchedBy (.run command) (pids.map .started) = pids := by
  have hcond : (Deed.run command).isBackground ∧ Act.refused ∉ pids.map Act.started :=
    ⟨h, by simp⟩
  rw [launchedBy, if_pos hcond, List.filterMap_map]
  exact List.filterMap_some

theorem launchedBy_awaited {command : Command} {failed : Bool} (h : command.isBackground → failed)
    (pids : List Pid) : launchedBy (.run command)
      (pids.map .started ++ refusal failed ++ pids.map .awaited) = [] := by
  refine if_neg fun hcond => hcond.2 ?_
  rw [h hcond.1, refusal, if_pos rfl]
  simp

/-- What holds of a refusal and of waits. -/
theorem forall_mem_waits {p : Act → Prop} {pids : List Pid} (hr : p .refused)
    (hw : ∀ pid ∈ pids, p (.awaited pid)) (failed : Bool) :
    ∀ act ∈ refusal failed ++ pids.map .awaited, p act := by
  refine List.forall_mem_append.2 ⟨?_, List.forall_mem_map.2 hw⟩
  cases failed <;> simp [refusal, hr]

/-- Looks at children that are told apart conclude what they show. -/
theorem filter_concluded {looks : List (Pid × Look)} (hn : (looks.map Prod.fst).Nodup) :
    (looks.map Prod.fst).filter (fun pid =>
        !(looks.map fun look => Act.polled look.1 look.2).any (Act.concludes pid)) =
      (looks.filter fun look => stillRuns look.2).map Prod.fst := by
  rw [List.filter_map]
  refine congrArg (List.map Prod.fst) (List.filter_congr fun look hm => ?_)
  have hconcludes : (looks.map fun look => Act.polled look.1 look.2).any (Act.concludes look.1) =
      !stillRuns look.2 := by
    rw [List.any_map, Bool.eq_iff_iff, List.any_eq_true]
    constructor
    · rintro ⟨other, ho, hc⟩
      obtain ⟨hsame, hdone⟩ : other.1 = look.1 ∧ stillRuns other.2 = false := by
        simpa [Act.concludes] using hc
      obtain rfl : other = look := List.inj_on_of_nodup_map hn ho hm hsame
      simpa using hdone
    · intro h
      exact ⟨look, hm, by simpa [Act.concludes] using h⟩
  rw [Function.comp_apply, hconcludes, Bool.not_not]

/-- The shell tracks whom it is to track. -/
theorem Minds.tracked (h : shell.Minds deed acts texts after) (hn : shell.background.Nodup) :
    after.background = trackedAfter shell.background deed acts := by
  have hkept (hall : ∀ act ∈ acts, ∀ pid, act.concludes pid = false) :
      shell.background.filter (fun pid => !acts.any (Act.concludes pid)) = shell.background := by
    refine List.filter_eq_self.2 fun pid _ => ?_
    have hnone : acts.any (Act.concludes pid) = false :=
      List.any_eq_false.2 fun act ha => by simp [hall act ha pid]
    rw [hnone]
    rfl
  unfold trackedAfter
  cases h with
  | @launched command pids _ hb hafter =>
    rw [hkept (by simp [Act.concludes]), launchedBy_started hb, hafter]
  | @awaited command pids failed _ hf hafter =>
    have hnone : ∀ act ∈ pids.map .started ++ refusal failed ++ pids.map .awaited, ∀ pid,
        act.concludes pid = false := by
      rw [List.append_assoc]
      exact List.forall_mem_append.2 ⟨by simp [Act.concludes],
        forall_mem_waits (fun _ => rfl) (fun _ _ _ => rfl) failed⟩
    rw [hkept hnone, launchedBy_awaited hf, hafter, List.append_nil]
  | @reaped looks _ hpids hafter =>
    rw [← hpids] at hn ⊢
    rw [filter_concluded hn, hafter]
    exact (List.append_nil _).symm
  | prompted hafter | took hafter =>
    rw [hkept (by simp), hafter]
    exact (List.append_nil _).symm
  | left pid =>
    rw [hkept (by simp)]
    exact (List.append_nil _).symm

/-- A deed keeps hold of the children, if those that it starts are new. -/
theorem Minds.holds (h : shell.Minds deed acts texts after) {out : List Pid}
    (hh : shell.Holds out) (hf : Fresh out acts) : after.Holds (outAfter out acts) := by
  cases h with
  | @launched command pids _ hb hafter =>
    obtain ⟨hnodup, hnew, hmem⟩ := fresh_started hf
    constructor
    · rw [hafter]
      refine List.nodup_append.2 ⟨hh.nodup, hnodup, fun pid hp other ho he => ?_⟩
      exact hnew other ho (he ▸ hh.out pid hp)
    · intro pid hp
      rw [hafter] at hp
      exact (hmem pid).2 ((List.mem_append.1 hp).symm.imp_right (hh.out pid))
  | @awaited command pids failed _ hb hafter =>
    rw [List.append_assoc, fresh_append] at hf
    obtain ⟨-, hnew, hmem⟩ := fresh_started hf.1
    refine ⟨hafter ▸ hh.nodup, fun pid hp => ?_⟩
    rw [hafter] at hp
    have hout := hh.out pid hp
    have hstarts : ∀ act ∈ refusal failed ++ pids.map .awaited, act.started? = none :=
      forall_mem_waits (by rfl) (fun _ _ => by rfl) failed
    rw [List.append_assoc, outAfter_append, mem_outAfter hstarts]
    refine ⟨(hmem pid).2 (.inr hout), forall_mem_waits (by rfl) (fun other ho => ?_) failed⟩
    have hne : other ≠ pid := fun he => hnew pid (he ▸ ho) hout
    simpa [Act.settles] using hne
  | @reaped looks _ hpids hafter =>
    have hn := hh.nodup
    rw [← hpids] at hn
    have hsub : after.background ⊆ shell.background := by
      rw [hafter, ← hpids]
      exact List.map_subset _ (List.filter_subset_self _)
    constructor
    · rw [hafter]
      exact hn.sublist (List.filter_sublist.map _)
    · intro pid hp
      rw [mem_outAfter (List.forall_mem_map.2 fun _ _ => rfl)]
      refine ⟨hh.out pid (hsub hp), fun act ha => ?_⟩
      rw [hafter, ← filter_concluded hn, List.mem_filter] at hp
      have hnone : (looks.map fun look => Act.polled look.1 look.2).any (Act.concludes pid) =
          false := by simpa using hp.2
      have hact : act.concludes pid = false := by simpa using List.any_eq_false.1 hnone act ha
      obtain ⟨look, -, rfl⟩ := List.mem_map.1 ha
      exact hact
  | prompted hafter | took hafter =>
    exact ⟨hafter ▸ hh.nodup, fun pid hp => hh.out pid (hafter ▸ hp)⟩
  | left pid => exact hh

/-! ## What a deed adds to a career -/

/-- A number that is not tracked means nothing to the shell until a child gets it. -/
theorem Minds.career_of_not_mem (h : shell.Minds deed acts texts after) {pid : Pid}
    (hp : pid ∉ shell.background) (rest : List Act) :
    career pid (acts ++ rest) = [] ∨
      pid ∉ after.background ∧ career pid (acts ++ rest) = career pid rest := by
  cases h with
  | @launched command pids _ hb hafter =>
    rw [career_started, hafter, List.mem_append]
    by_cases hm : pid ∈ pids
    · exact .inl (if_pos hm)
    · exact .inr ⟨not_or.2 ⟨hp, hm⟩, if_neg hm⟩
  | @awaited command pids failed _ hf hafter =>
    rw [List.append_assoc, List.append_assoc, career_started, career_refusal, hafter]
    by_cases hm : pid ∈ pids
    · exact .inl (if_pos hm)
    · exact .inr ⟨hp, by rw [if_neg hm, career_awaited_of_not_mem hm]⟩
  | @reaped looks _ hpids hafter =>
    rw [← hpids] at hp
    refine .inr ⟨fun hm => hp ?_, career_polled_of_not_mem hp⟩
    rw [hafter] at hm
    exact List.map_subset _ (List.filter_subset_self _) hm
  | prompted hafter | took hafter => exact .inr ⟨hafter ▸ hp, rfl⟩
  | left pid => exact .inr ⟨hp, rfl⟩

/-- A tracked child is left alone, or looked at once and tracked on if it still runs. -/
theorem Minds.career_of_mem (h : shell.Minds deed acts texts after) {out : List Pid}
    (hh : shell.Holds out) (hf : Fresh out acts) {pid : Pid} (hp : pid ∈ shell.background)
    (rest : List Act) :
    (pid ∈ after.background ∧ (career pid (acts ++ rest) = career pid rest ∨
      career pid (acts ++ rest) = .polled pid (.ok none) :: career pid rest)) ∨
    pid ∉ after.background ∧ ∃ look, stillRuns look = false ∧
      career pid (acts ++ rest) = .polled pid look :: career pid rest := by
  have hout := hh.out pid hp
  cases h with
  | @launched command pids _ hb hafter =>
    have hm : pid ∉ pids := fun hm => (fresh_started hf).2.1 pid hm hout
    refine .inl ⟨hafter ▸ List.mem_append_left _ hp, .inl ?_⟩
    rw [career_started, if_neg hm]
  | @awaited command pids failed _ hb hafter =>
    rw [List.append_assoc, fresh_append] at hf
    have hm : pid ∉ pids := fun hm => (fresh_started hf.1).2.1 pid hm hout
    refine .inl ⟨hafter ▸ hp, .inl ?_⟩
    rw [List.append_assoc, List.append_assoc, career_started, if_neg hm, career_refusal,
      career_awaited_of_not_mem hm]
  | @reaped looks _ hpids hafter =>
    have hn := hh.nodup
    rw [← hpids] at hn hp
    obtain ⟨⟨_, look⟩, hl, rfl⟩ := List.mem_map.1 hp
    have hcareer := @career_polled _ rest looks hn look hl
    rw [hafter]
    by_cases hr : stillRuns look
    · obtain rfl : look = .ok none := by
        unfold stillRuns at hr
        split at hr
        · rfl
        · cases hr
      exact .inl ⟨List.mem_map.2 ⟨_, List.mem_filter.2 ⟨hl, rfl⟩, rfl⟩, .inr hcareer⟩
    · refine .inr ⟨fun hm => ?_, look, by simpa using hr, hcareer⟩
      obtain ⟨other, ho, hsame⟩ := List.mem_map.1 hm
      obtain ⟨hol, hor⟩ := List.mem_filter.1 ho
      obtain rfl : other = (_, look) := List.inj_on_of_nodup_map hn hol hl hsame
      exact hr hor
  | prompted hafter | took hafter => exact .inl ⟨hafter ▸ hp, .inl rfl⟩
  | left pid => exact .inl ⟨hp, .inl rfl⟩

/-- A start in a series of starts. -/
theorem eq_of_started {pids : List Pid} {tail first rest : List Act} {pid : Pid}
    (ht : ∀ act ∈ tail, act.started? = none)
    (h : pids.map .started ++ tail = first ++ .started pid :: rest) :
    ∃ earlier later, pids = earlier ++ pid :: later ∧ rest = later.map .started ++ tail := by
  induction pids generalizing first with
  | nil =>
    have hm : .started pid ∈ tail := by
      rw [show tail = _ from h]
      simp
    exact nomatch ht _ hm
  | cons other others ih =>
    rcases first with _ | ⟨act, first⟩
    · obtain ⟨rfl, rfl⟩ : other = pid ∧ others.map .started ++ tail = rest := by simpa using h
      exact ⟨[], others, rfl, rfl⟩
    · obtain ⟨earlier, later, rfl, rfl⟩ := ih (List.cons.inj h).2
      exact ⟨other :: earlier, later, rfl, rfl⟩

/-- A child that was started is tracked from then on, or waited for at once. -/
theorem Minds.career_of_started (h : shell.Minds deed acts texts after) {out : List Pid}
    (hh : shell.Holds out) (hf : Fresh out acts) {first tail : List Act} {pid : Pid}
    (hs : acts = first ++ .started pid :: tail) :
    (pid ∈ launchedBy deed acts ∧ pid ∈ after.background ∧
      ∀ rest, career pid (tail ++ rest) = career pid rest) ∨
    pid ∉ launchedBy deed acts ∧ pid ∉ after.background ∧
      ∀ rest, career pid (tail ++ rest) = .awaited pid :: career pid rest := by
  have hmem : .started pid ∈ acts := by
    rw [hs]
    simp
  cases h with
  | @launched command pids _ hb hafter =>
    obtain ⟨hn, -, -⟩ := fresh_started hf
    have hseries : pids.map Act.started ++ [] = first ++ .started pid :: tail := by
      rw [List.append_nil, hs]
    obtain ⟨earlier, later, rfl, rfl⟩ := eq_of_started (by simp) hseries
    have hnot : pid ∉ later := (List.nodup_cons.1 (List.nodup_append.1 hn).2.1).1
    refine .inl ⟨?_, ?_, fun rest => ?_⟩
    · rw [launchedBy_started hb]
      simp
    · rw [hafter]
      simp
    · rw [List.append_nil, career_started, if_neg hnot]
  | @awaited command pids failed _ hb hafter =>
    rw [launchedBy_awaited hb]
    rw [List.append_assoc] at hf hs
    obtain ⟨hn, hnew, -⟩ := fresh_started (fresh_append.1 hf).1
    obtain ⟨earlier, later, rfl, rfl⟩ :=
      eq_of_started (forall_mem_waits (by rfl) (fun _ _ => by rfl) failed) hs
    have hp : pid ∈ earlier ++ pid :: later := by simp
    have hnot : pid ∉ later := (List.nodup_cons.1 (List.nodup_append.1 hn).2.1).1
    refine .inr ⟨List.not_mem_nil, fun hback => hnew pid hp ?_, fun rest => ?_⟩
    · exact hh.out pid (hafter ▸ hback)
    · rw [List.append_assoc, List.append_assoc, career_started, if_neg hnot, career_refusal,
        career_awaited hn hp]
  | reaped => simp at hmem
  | prompted | took | left => cases hmem

end

/-! ## Histories -/

/-- The children that an episode launched to be tracked. -/
def Episode.launched (e : Episode σ) : List Pid := launchedBy e.deed (dealings e.moves)

/-- The children to be tracked after these episodes, where `before` were to be tracked. -/
def trackedFrom (before : List Pid) (episodes : List (Episode σ)) : List Pid :=
  episodes.foldl (fun before e => trackedAfter before e.deed (dealings e.moves)) before

/-- The children to be tracked, by the history of a shell: those that were launched in the
background, in order, and that no look has shown to have ended. -/
abbrev tracked (episodes : List (Episode σ)) : List Pid := trackedFrom [] episodes

/-- The accounts of a history. -/
structure Accounted (host : Host σ) (bound : Nat) (episodes : List (Episode σ)) (shell : Shell) :
    Prop where
  /-- Before each deed the shell tracks whom it is to track, and nobody twice. -/
  before : ∀ earlier e later, episodes = earlier ++ e :: later →
    e.before.background = tracked earlier ∧ e.before.background.Nodup
  now : shell.background = tracked episodes ∧ shell.background.Nodup
  minds : ∀ e ∈ episodes, ∃ texts, Says host bound texts e.moves ∧
    e.before.Minds e.deed (dealings e.moves) texts e.after
  /-- Each start has the career that its deed was to give it. -/
  career : ∀ earlier e later first pid rest, episodes = earlier ++ e :: later →
    dealings e.moves = first ++ .started pid :: rest →
      let course := career pid (rest ++ dealings (Episode.allMoves later))
      if pid ∈ e.launched then Watched pid course else course = [.awaited pid]

section
variable {host : Host σ} {bound : Nat} {due : Deed → Shell → Prop} {shell after : Shell}
  {state last : σ} {episodes : List (Episode σ)} {out : List Pid} {pid : Pid}

theorem dealings_cons (e : Episode σ) (episodes : List (Episode σ)) :
    dealings (Episode.allMoves (e :: episodes)) =
      dealings e.moves ++ dealings (Episode.allMoves episodes) := by
  rw [Episode.allMoves, List.flatMap_cons, dealings_append]
  rfl

theorem dealings_split (earlier : List (Episode σ)) (e : Episode σ) (later : List (Episode σ)) :
    dealings (Episode.allMoves (earlier ++ e :: later)) =
      dealings (Episode.allMoves earlier) ++
        (dealings e.moves ++ dealings (Episode.allMoves later)) := by
  rw [← dealings_cons, ← dealings_append]
  exact congrArg dealings List.flatMap_append

/-- A deed that was carried through. -/
theorem minds_of_trace {deed : Deed} (hs : deed.Single) {moves : List (Move σ)}
    (ht : trace host bound (deed.action shell) state = ⟨moves, some (.returned after, last)⟩) :
    ∃ texts, Says host bound texts moves ∧ shell.Minds deed (dealings moves) texts after := by
  have htends := @Deed.tends σ host bound deed hs shell state
  rw [ht] at htends
  cases htends with
  | returned htexts hminds => exact ⟨_, htexts, hminds⟩
  | broken hr _ => exact absurd rfl (hr _ _)

theorem Lives.holds (h : Lives host bound due shell state episodes after last)
    (hh : shell.Holds out) (hf : Fresh out (dealings (Episode.allMoves episodes))) :
    after.Holds (outAfter out (dealings (Episode.allMoves episodes))) ∧
      after.background = trackedFrom shell.background episodes := by
  induction h generalizing out with
  | rest => exact ⟨hh, rfl⟩
  | act hs _ ht _ ih =>
    obtain ⟨texts, -, hm⟩ := minds_of_trace hs ht
    rw [dealings_cons] at hf ⊢
    obtain ⟨hdeed, hrest⟩ := fresh_append.1 hf
    obtain ⟨hholds, htracked⟩ := ih (hm.holds hh hdeed) hrest
    rw [outAfter_append]
    refine ⟨hholds, ?_⟩
    rw [htracked, hm.tracked hh.nodup]
    rfl

/-- The number of a child that is done with is not used again, until another child gets it. -/
theorem Lives.career_of_not_mem (h : Lives host bound due shell state episodes after last)
    (hp : pid ∉ shell.background) : career pid (dealings (Episode.allMoves episodes)) = [] := by
  induction h with
  | rest => rfl
  | act hs _ ht _ ih =>
    obtain ⟨texts, -, hm⟩ := minds_of_trace hs ht
    rw [dealings_cons]
    obtain hover | ⟨hnot, hskip⟩ := hm.career_of_not_mem hp _
    · exact hover
    · rw [hskip, ih hnot]

/-- A tracked child is looked at until it has ended. -/
theorem Lives.watched (h : Lives host bound due shell state episodes after last)
    (hh : shell.Holds out) (hf : Fresh out (dealings (Episode.allMoves episodes)))
    (hp : pid ∈ shell.background) :
    Watched pid (career pid (dealings (Episode.allMoves episodes))) := by
  induction h generalizing out with
  | rest => exact .nothing
  | act hs _ ht hl ih =>
    obtain ⟨texts, -, hm⟩ := minds_of_trace hs ht
    rw [dealings_cons] at hf ⊢
    obtain ⟨hdeed, hrest⟩ := fresh_append.1 hf
    have hnext := ih (hm.holds hh hdeed) hrest
    obtain ⟨hmem, hskip | hstill⟩ | ⟨hnot, look, hover, hlast⟩ := hm.career_of_mem hh hdeed hp _
    · rw [hskip]
      exact hnext hmem
    · rw [hstill]
      exact .still (hnext hmem)
    · rw [hlast, hl.career_of_not_mem hnot]
      exact .settled hover

/-- A history up to an episode, the episode, and the history from there. -/
theorem Lives.split {earlier later : List (Episode σ)} {e : Episode σ}
    (h : Lives host bound due shell state (earlier ++ e :: later) after last) :
    ∃ mid mid', Lives host bound due shell state earlier e.before mid ∧ e.deed.Single ∧
      trace host bound (e.deed.action e.before) mid = ⟨e.moves, some (.returned e.after, mid')⟩ ∧
      Lives host bound due e.after mid' later after last := by
  obtain ⟨between, mid, hl, hl'⟩ := h.parts
  cases hl' with
  | act hs hd ht hl' => exact ⟨mid, _, hl, hs, ht, hl'⟩

/-- The accounts of a shell that began without children. -/
theorem Lives.accounted (h : Lives host bound due shell state episodes after last)
    (hnone : shell.background = []) (hf : Fresh [] (dealings (Episode.allMoves episodes))) :
    Accounted host bound episodes after := by
  have hstart : shell.Holds [] := ⟨hnone ▸ .nil, by simp [hnone]⟩
  have hpart {earlier later : List (Episode σ)} {e : Episode σ}
      (he : episodes = earlier ++ e :: later) :
      Fresh [] (dealings (Episode.allMoves earlier)) ∧
        Fresh (outAfter [] (dealings (Episode.allMoves earlier)))
          (dealings e.moves ++ dealings (Episode.allMoves later)) := by
    rw [he, dealings_split] at hf
    exact fresh_append.1 hf
  constructor
  · intro earlier e later he
    obtain ⟨mid, _, hl, -⟩ := (he ▸ h).split
    obtain ⟨hholds, htracked⟩ := hl.holds hstart (hpart he).1
    rw [hnone] at htracked
    exact ⟨htracked, hholds.nodup⟩
  · obtain ⟨hholds, htracked⟩ := h.holds hstart hf
    rw [hnone] at htracked
    exact ⟨htracked, hholds.nodup⟩
  · intro e he
    obtain ⟨earlier, later, rfl⟩ := List.append_of_mem he
    obtain ⟨mid, mid', -, hs, ht, -⟩ := h.split
    exact minds_of_trace hs ht
  · intro earlier e later first pid rest he hd
    obtain ⟨mid, mid', hl, hs, ht, hl'⟩ := (he ▸ h).split
    obtain ⟨texts, -, hm⟩ := minds_of_trace hs ht
    obtain ⟨hbefore, hrest⟩ := hpart he
    obtain ⟨hdeed, hlater⟩ := fresh_append.1 hrest
    obtain ⟨hholds, -⟩ := hl.holds hstart hbefore
    obtain ⟨hlaunched, hmem, hskip⟩ | ⟨hnot, hgone, hwait⟩ :=
      hm.career_of_started hholds hdeed hd
    · rw [Episode.launched, if_pos hlaunched, hskip]
      exact hl'.watched (hm.holds hholds hdeed) hlater hmem
    · rw [Episode.launched, if_neg hnot, hwait, hl'.career_of_not_mem hgone]

end

/-! ## The work of a shell -/

/-- What a new shell is there for: a session, or orders one after the other. -/
inductive Work where
  | session
  | orders (orders : List Order)

namespace Work

def action : Work → Action Shell
  | session => runLoop {} >>= fun result => pure result.2
  | orders given => serve {} given

/-- Orders are followed by any shell. -/
def due : Work → Deed → Shell → Prop
  | session => Deed.InSession
  | orders _ => fun _ _ => True

theorem unfolds (work : Work) (host : Host σ) (bound : Nat) (state : σ) :
    Unfolds host bound work.due id {} state (trace host bound work.action state) := by
  cases work with
  | session =>
    rw [action, Action.trace_bind]
    exact (runLoop_unfolds {} state).map fun _ => rfl
  | orders given => exact serve_unfolds (fun _ _ => trivial) given {} state

end Work

/-- However the system answers, the children of a new shell are accounted for at each point between
two of its deeds, unless a child gets the number of one that is still out. What was begun and not
carried through has not waited for anybody. -/
theorem children_accounted (work : Work) (host : Host σ) (bound : Nat) (state : σ)
    (hf : Fresh [] (dealings (trace host bound work.action state).moves)) :
    ∃ episodes shell mid tail,
      (trace host bound work.action state).moves = Episode.allMoves episodes ++ tail ∧
      Lives host bound work.due {} state episodes shell mid ∧
      Accounted host bound episodes shell ∧
      (∀ after last, (trace host bound work.action state).result = some (.returned after, last) →
        tail = [] ∧ after = shell) ∧
      (tail = [] ∨ ∃ deed : Deed, deed.Single ∧ work.due deed shell ∧
        tail = (trace host bound (deed.action shell) mid).moves) ∧
      ∀ pid, .awaited pid ∉ dealings tail := by
  have hunfolds := work.unfolds host bound state
  generalize trace host bound work.action state = run at hunfolds hf
  cases hunfolds with
  | @returned episodes value last hl =>
    refine ⟨episodes, value, last, [], (List.append_nil _).symm, hl, hl.accounted rfl hf, ?_,
      .inl rfl, by simp⟩
    rintro after _ ⟨⟩
    exact ⟨rfl, rfl⟩
  | @paused episodes between mid hl =>
    exact ⟨episodes, between, mid, [], (List.append_nil _).symm, hl, hl.accounted rfl hf, nofun,
      .inl rfl, by simp⟩
  | @broken episodes between mid deed tail cut result hl hs hd ht hb =>
    have hfresh : Fresh [] (dealings (Episode.allMoves episodes)) := by
      rw [dealings_append] at hf
      exact (fresh_append.1 hf).1
    have hleft (value : Shell) (last : σ) : result ≠ some (.returned value, last) ∧
        cut ≠ some (.returned value, last) := by
      cases hb <;> exact ⟨nofun, nofun⟩
    have htends := @Deed.tends σ host bound deed hs between mid
    rw [ht] at htends
    refine ⟨episodes, between, mid, tail, rfl, hl, hl.accounted rfl hfresh,
      fun after last hr => absurd hr (hleft after last).1, .inr ⟨deed, hs, hd, by rw [ht]⟩, ?_⟩
    cases htends with
    | returned => exact absurd rfl (hleft _ _).2
    | broken _ hw => exact hw

/-- A pipeline in the background, children that are waited for, a look at the first two, which have
ended, and one more child in the background. -/
theorem children_accounted_rehearsal :
    let work : Work :=
      .orders [.line "sleep 9 | wc &", .line "ls; cat | sort", .reap, .line "who &"]
    Fresh [] (dealings (trace Recorder.host 40 work.action {}).moves) ∧
      ∃ (episodes : List (Episode Recorder)) (shell : Shell),
        Accounted Recorder.host 40 episodes shell ∧ shell.background = [106] := by
  intro work
  have hf : Fresh [] (dealings (trace Recorder.host 40 work.action {}).moves) := by decide +kernel
  have hback : ((trace Recorder.host 40 work.action {}).result.map fun result =>
      match result.1 with
      | .returned shell => shell.background
      | .exited _ => []) = some [106] := by decide +kernel
  obtain ⟨episodes, shell, mid, tail, -, -, ha, hend, -⟩ :=
    children_accounted work Recorder.host 40 {} hf
  refine ⟨hf, episodes, shell, ha, ?_⟩
  rcases hr : (trace Recorder.host 40 work.action {}).result with _ | ⟨after | status, last⟩ <;>
    rw [hr] at hback
  · cases hback
  · obtain ⟨-, rfl⟩ := hend after last hr
    simpa using hback
  · cases hback

end Shell

end TinyShell
