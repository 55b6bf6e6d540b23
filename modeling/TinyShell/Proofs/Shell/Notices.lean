import TinyShell.Proofs.Shell.Rightful
import TinyShell.Proofs.Text.Pieces

/-!
# What a shell says about a child

A text about a child starts with the number of the child in brackets (`speaksOf`), and neither the
prompt nor the farewell of a new shell does. `Shell.Lives.notices`: of all that a shell says, the
texts about one child are the notice of its start, if it was started to be tracked, and a notice
for each look that showed its end.

`Shell.Lives.notices_of_launched` puts this together with the career of the child: if no child gets
the number of another one, there is exactly one notice of the start, before all others.
-/

namespace TinyShell

open TinyShell.Action (Ensures)

variable {σ : Type}

/-! ## Numbers in brackets -/

/-- The text is about this child: it starts with its number in brackets. -/
def speaksOf (pid : Pid) (text : String) : Bool :=
  ("[" ++ Text.decimal pid ++ "]").toList.isPrefixOf text.toList

theorem speaksOf_bracketed (pid other : Pid) (rest : String) :
    speaksOf pid ("[" ++ Text.decimal other ++ "]" ++ rest) = decide (other = pid) := by
  rw [speaksOf, Bool.eq_iff_iff, List.isPrefixOf_iff_prefix, decide_eq_true_iff]
  constructor
  · rintro ⟨tail, ht⟩
    refine Text.decimal_injective (String.toList_inj.1 ?_)
    have hdigits (pid : Pid) : ∀ c ∈ (Text.decimal pid).toList, c ≠ ']' := fun c hc he =>
      Text.not_mem_decimal rfl (by decide) pid (he ▸ hc)
    have hlist : (Text.decimal other).toList ++ ']' :: rest.toList =
        (Text.decimal pid).toList ++ ']' :: tail := by simpa using ht.symm
    exact (Text.append_inj_of_forall (hdigits other) (hdigits pid) (by simp) (by simp) hlist).1
  · rintro rfl
    exact ⟨rest.toList, (String.toList_append ..).symm⟩

theorem speaksOf_startNotice (pid other : Pid) :
    speaksOf pid (startNotice other) = decide (other = pid) := by
  have htext : startNotice other = "[" ++ Text.decimal other ++ "]" ++ "\n" :=
    String.toList_inj.1 (by simp [startNotice])
  rw [htext, speaksOf_bracketed]

/-- The notice of an end is about the child that ended. -/
theorem filter_endNotice (pid other : Pid) (look : Look) :
    (endNotice other look).filter (speaksOf pid) =
      if other = pid then endNotice other look else [] := by
  rcases look with errno | _ | status
  · exact (ite_self _).symm
  · exact (ite_self _).symm
  · have htext : "[" ++ Text.decimal other ++ "] Done " ++ Text.decimal status ++ "\n" =
        "[" ++ Text.decimal other ++ "]" ++ (" Done " ++ Text.decimal status ++ "\n") :=
      String.toList_inj.1 (by simp)
    rw [endNotice, htext, List.filter_cons, speaksOf_bracketed, List.filter_nil]
    simp

/-- A text that starts with something else than a bracket is about no child. -/
theorem speaksOf_eq_false {text : String} (h : text.toList.head? ≠ some '[') (pid : Pid) :
    speaksOf pid text = false := by
  rw [← Bool.not_eq_true, speaksOf, List.isPrefixOf_iff_prefix]
  rintro ⟨tail, ht⟩
  exact h (by simp [← ht])

/-! ## What a shell is called -/

namespace Shell

/-- Neither the prompt of the shell nor its name could be taken for a notice. -/
structure Unbracketed (shell : Shell) : Prop where
  prompt : shell.prompt.toList.head? ≠ some '['
  name : shell.name.toList.head? ≠ some '['

theorem new_unbracketed : Unbracketed {} := ⟨by decide, by decide⟩

/-- The shell has kept its name and its prompt. -/
structure SameFace (shell after : Shell) : Prop where
  name : after.name = shell.name
  prompt : after.prompt = shell.prompt

theorem Recruits.sameFace {shell after : Shell} (h : shell.Recruits after) :
    shell.SameFace after := by
  obtain ⟨background, rfl⟩ := h
  exact ⟨rfl, rfl⟩

theorem SameFace.unbracketed {shell after : Shell} (h : shell.SameFace after)
    (hu : shell.Unbracketed) : after.Unbracketed :=
  ⟨h.prompt ▸ hu.prompt, h.name ▸ hu.name⟩

section
variable (shell : Shell)

theorem getCommand_sameFace :
    Ensures shell.getCommand (Ending.Returned fun result => shell.SameFace result.2) := by
  refine (Ensures.display _ _).andThen fun _ _ =>
    (Action.Stays.loopRules.read trivial _).andThen fun result _ => ?_
  obtain ⟨_ | _ | errno, line⟩ := result
  · refine (parseLine_ensures { shell with line } line.text).andThen fun after h => .pure ?_
    subst h
    exact ⟨rfl, rfl⟩
  · exact .pure ⟨rfl, rfl⟩
  · exact (Ensures.call _).andThen fun _ _ => .pure ⟨rfl, rfl⟩

theorem runSimple_sameFace (command : SimpleCommand) :
    Ensures (Job.runSimple shell command)
      (Ending.IfReturned fun result => shell.SameFace result.2) := by
  have hsame : shell.SameFace shell := ⟨rfl, rfl⟩
  unfold Job.runSimple
  split
  · exact .pure hsame
  split
  · rename_i builtin _
    refine (Ensures.log _).andThen fun _ _ => ?_
    cases builtin with
    | cd =>
      refine (Ensures.call _).andThen fun reply _ => ?_
      rcases reply with errno | _
      · exact (Ensures.call _).andThen fun _ _ => .pure hsame
      · exact .pure hsame
    | exit => exact (Ensures.log _).andThen fun _ _ => .exit trivial
    | quit => exact .pure ⟨rfl, rfl⟩
  · exact (Ensures.log _).andThen fun _ _ => (Job.runProgram_recruits shell command).mono
      fun _ h => (h.mono fun _ => Recruits.sameFace).ifReturned

/-- No deed gives the shell another name or prompt. -/
theorem Deed.sameFace {deed : Deed} (hs : deed.Single) :
    Ensures (deed.action shell) (Ending.IfReturned shell.SameFace) := by
  have hsame : shell.SameFace shell := ⟨rfl, rfl⟩
  cases deed with
  | reap =>
    exact (reap_recruits shell).mono fun _ h => (h.mono fun _ => Recruits.sameFace).ifReturned
  | prompt => exact (getCommand_sameFace shell).andThen fun _ h => .pure h
  | take line =>
    refine (Ensures.log _).andThen fun _ _ => (parseLine_ensures shell line).mono fun _ h => ?_
    refine (h.mono ?_).ifReturned
    rintro _ rfl
    exact ⟨rfl, rfl⟩
  | run command =>
    have hrun : Ensures (Job.run shell command)
        (Ending.IfReturned fun result => shell.SameFace result.2) := by
      cases command with
      | empty faults => exact .pure hsame
      | invalid faults => exact (Ensures.call _).andThen fun _ _ => .pure hsame
      | simple command => exact runSimple_sameFace shell command
      | pipeline pipeline =>
        exact (Job.runPipeline_recruits shell pipeline).mono
          fun _ h => (h.mono fun _ => Recruits.sameFace).ifReturned
      | list => exact hs.elim
    exact hrun.bind (fun _ h => .pure h) fun _ _ => trivial
  | leave =>
    refine (takeLeave_ensures shell).mono fun _ h => (h.mono ?_).ifReturned
    rintro _ rfl
    exact hsame

end

end Shell

/-! ## The notices of a deed -/

/-- The notices that an act calls for. -/
def Act.notices : Act → List String
  | polled pid look => endNotice pid look
  | _ => []

theorem filter_endNotices (pid : Pid) (looks : List (Pid × Look)) :
    (looks.flatMap fun look => endNotice look.1 look.2).filter (speaksOf pid) =
      ((looks.map fun look => Act.polled look.1 look.2).filter (Act.concerns pid)).flatMap
        Act.notices := by
  induction looks with
  | nil => rfl
  | cons look rest ih =>
    rw [List.flatMap_cons, List.filter_append, filter_endNotice, ih, List.map_cons,
      List.filter_cons]
    by_cases he : look.1 = pid <;> simp [Act.concerns, Act.notices, he]

namespace Shell

section
variable {shell after : Shell} {deed : Deed} {acts : List Act} {texts : List String}

theorem launchedBy_of_not_background (h : deed.isBackground = false) :
    launchedBy deed acts = [] := if_neg (by simp [h])

/-- What a deed says about a child: that it was launched, and what the looks at it have shown. -/
theorem Minds.notices (h : shell.Minds deed acts texts after) (hu : shell.Unbracketed)
    (pid : Pid) : texts.filter (speaksOf pid) =
      ((launchedBy deed acts).filter (· = pid)).map startNotice ++
        (acts.filter (Act.concerns pid)).flatMap Act.notices := by
  have hmute {text : String} (ht : text.toList.head? ≠ some '[') :
      [text].filter (speaksOf pid) = [] := by
    rw [List.filter_cons, speaksOf_eq_false ht]
    rfl
  cases h with
  | @launched command pids _ hb _ =>
    have hnone : (pids.map Act.started).filter (Act.concerns pid) = [] := by simp [Act.concerns]
    rw [launchedBy_started hb, hnone, List.filter_map, List.flatMap_nil, List.append_nil]
    exact congrArg (List.map _) (List.filter_congr fun other _ => speaksOf_startNotice pid other)
  | @awaited command pids failed _ hb _ =>
    have hnone : ∀ act ∈ pids.map .started ++ refusal failed ++ pids.map .awaited,
        act.notices = [] := by
      rw [List.append_assoc]
      exact List.forall_mem_append.2 ⟨by simp [Act.notices],
        forall_mem_waits (by rfl) (fun _ _ => by rfl) failed⟩
    rw [launchedBy_awaited hb]
    exact (List.flatMap_eq_nil_iff.2 fun act ha => hnone act (List.mem_filter.1 ha).1).symm
  | @reaped looks _ _ _ =>
    rw [launchedBy_of_not_background (by rfl)]
    exact filter_endNotices pid looks
  | prompted => exact hmute hu.prompt
  | took => rfl
  | left leaver =>
    refine hmute ?_
    have hname := hu.name
    rcases hn : shell.name.toList with _ | ⟨c, rest⟩
    · simp [hn]
    · simpa [hn] using hname

/-- Whoever was launched was started, and is tracked. -/
theorem Minds.of_launched (h : shell.Minds deed acts texts after) {pid : Pid}
    (hp : pid ∈ launchedBy deed acts) : acts = (launchedBy deed acts).map .started ∧
      after.background = shell.background ++ launchedBy deed acts := by
  cases h with
  | launched hb hafter =>
    rw [launchedBy_started hb]
    exact ⟨rfl, hafter⟩
  | awaited hf _ =>
    rw [launchedBy_awaited hf] at hp
    cases hp
  | reaped | prompted | took | left =>
    rw [launchedBy_of_not_background (by rfl)] at hp
    cases hp

end

/-! ## The notices of a history -/

/-- What an episode says about a child. -/
def Episode.noticesOf (pid : Pid) (e : Episode σ) : List String :=
  (e.launched.filter (· = pid)).map startNotice ++
    ((dealings e.moves).filter (Act.concerns pid)).flatMap Act.notices

section
variable {host : Host σ} {bound : Nat} {due : Deed → Shell → Prop} {shell after : Shell}
  {state last : σ} {episodes : List (Episode σ)} {pid : Pid}

/-- What a shell says about a child, of all that it says. -/
theorem Lives.notices (h : Lives host bound due shell state episodes after last)
    (hu : shell.Unbracketed) : ∃ texts, Says host bound texts (Episode.allMoves episodes) ∧
      ∀ pid, texts.filter (speaksOf pid) = episodes.flatMap (Episode.noticesOf pid) := by
  induction h with
  | rest => exact ⟨[], .nothing, fun _ => rfl⟩
  | @act deed shell between after state mid last moves episodes hs _ ht _ ih =>
    have hface : shell.SameFace between := Deed.sameFace shell hs σ host bound state
      (.returned between) mid (by rw [← Action.trace_result, ht])
    obtain ⟨texts, htexts, hm⟩ := minds_of_trace hs ht
    obtain ⟨words, hwords, hrest⟩ := ih (hface.unbracketed hu)
    refine ⟨texts ++ words, htexts.append hwords, fun pid => ?_⟩
    rw [List.filter_append, hm.notices hu, hrest, List.flatMap_cons]
    rfl

theorem mem_started {acts : List Act} :
    pid ∈ acts.filterMap Act.started? ↔ .started pid ∈ acts := by
  rw [List.mem_filterMap]
  constructor
  · rintro ⟨act, ha, hs⟩
    cases act with
    | started other =>
      obtain rfl : other = pid := Option.some.inj hs
      exact ha
    | _ => cases hs
  · exact fun h => ⟨_, h, rfl⟩

theorem started_mem_of_launchedBy {deed : Deed} {acts : List Act}
    (h : pid ∈ launchedBy deed acts) : .started pid ∈ acts := by
  unfold launchedBy at h
  split at h
  · exact mem_started.1 h
  · cases h

/-- What is said about a child that is not started here is said for what becomes of it. -/
theorem notices_of_not_started (h : .started pid ∉ dealings (Episode.allMoves episodes)) :
    episodes.flatMap (Episode.noticesOf pid) =
      (career pid (dealings (Episode.allMoves episodes))).flatMap Act.notices := by
  rw [career_eq_filter h]
  induction episodes with
  | nil => rfl
  | cons e rest ih =>
    rw [dealings_cons] at h ⊢
    obtain ⟨hfirst, hrest⟩ := not_or.1 (mt List.mem_append.2 h)
    have hlaunched : e.launched.filter (· = pid) = [] := by
      refine List.filter_eq_nil_iff.2 fun other ho he => ?_
      obtain rfl : other = pid := by simpa using he
      exact hfirst (started_mem_of_launchedBy ho)
    rw [List.flatMap_cons, ih hrest, Episode.noticesOf, hlaunched, List.filter_append,
      List.flatMap_append]
    rfl

/-- The episode that launches a child says so once, and nothing else about the child. -/
theorem Episode.noticesOf_of_launched {e : Episode σ}
    (hacts : dealings e.moves = e.launched.map .started)
    (hn : ((dealings e.moves).filterMap Act.started?).Nodup) (hp : pid ∈ e.launched) :
    e.noticesOf pid = [startNotice pid] := by
  have hstarted : (dealings e.moves).filterMap Act.started? = e.launched := by
    rw [hacts, List.filterMap_map]
    exact List.filterMap_some
  have hnodup : e.launched.Nodup := hstarted ▸ hn
  have hone : e.launched.filter (· = pid) = [pid] := by
    rw [List.filter_eq, List.count_eq_one_of_mem hnodup hp]
    rfl
  have hnone : (dealings e.moves).filter (Act.concerns pid) = [] := by
    rw [hacts]
    simp [Act.concerns]
  rw [Episode.noticesOf, hone, hnone]
  rfl

/-- A tracked child that no act concerns stays tracked. -/
theorem mem_trackedFrom_of_unconcerned {tracked : List Pid} (hp : pid ∈ tracked)
    (hnone : (dealings (Episode.allMoves episodes)).filter (Act.concerns pid) = []) :
    pid ∈ trackedFrom tracked episodes := by
  refine mem_trackedFrom hp fun e he act ha => ?_
  obtain ⟨move, hmove, hact⟩ := List.mem_filterMap.1 ha
  have hmem : act ∈ dealings (Episode.allMoves episodes) :=
    List.mem_filterMap.2 ⟨move, List.mem_flatMap.2 ⟨e, he, hmove⟩, hact⟩
  have hother := List.filter_eq_nil_iff.1 hnone act hmem
  cases act with
  | polled other look =>
    simp only [Act.concerns, decide_eq_true_eq] at hother
    simp [Act.concludes, hother]
  | started | refused | awaited => rfl

/-- A child that was launched has one notice of it, and what follows is its career. -/
theorem Lives.notices_of_launched (h : Lives host bound due shell state episodes after last)
    (hnone : shell.background = [])
    (hn : ((dealings (Episode.allMoves episodes)).filterMap Act.started?).Nodup)
    {earlier later : List (Episode σ)} {e : Episode σ} (he : episodes = earlier ++ e :: later)
    (hp : pid ∈ e.launched) :
    let course := career pid (dealings (Episode.allMoves later))
    episodes.flatMap (Episode.noticesOf pid) = startNotice pid :: course.flatMap Act.notices ∧
      Watched pid course ∧ (pid ∉ after.background → course ≠ []) := by
  have hstart : shell.Holds [] := ⟨hnone ▸ .nil, by simp [hnone]⟩
  have hfresh := @fresh_of_nodup [] _ hn (by simp)
  obtain ⟨mid, mid', hl, hs, ht, hl'⟩ := (he ▸ h).split
  obtain ⟨texts, -, hm⟩ := minds_of_trace hs ht
  rw [he, dealings_split] at hn hfresh
  obtain ⟨hfirst, hrest⟩ := fresh_append.1 hfresh
  obtain ⟨hdeed, hlater⟩ := fresh_append.1 hrest
  obtain ⟨hholds, -⟩ := hl.holds hstart hfirst
  obtain ⟨hacts, hback⟩ := hm.of_launched hp
  -- its number is used for no other child
  rw [List.filterMap_append, List.filterMap_append, List.nodup_append'] at hn
  obtain ⟨-, hn, hbefore⟩ := hn
  rw [List.nodup_append'] at hn
  obtain ⟨hown, -, hbehind⟩ := hn
  have hmem : pid ∈ (dealings e.moves).filterMap Act.started? :=
    mem_started.2 (started_mem_of_launchedBy hp)
  have hnot : .started pid ∉ dealings (Episode.allMoves earlier) := fun hm =>
    hbefore (mem_started.2 hm) (List.mem_append_left _ hmem)
  have hnot' : .started pid ∉ dealings (Episode.allMoves later) := fun hm =>
    hbehind hmem (mem_started.2 hm)
  refine ⟨?_, ?_, ?_⟩
  · rw [he, List.flatMap_append, List.flatMap_cons, notices_of_not_started hnot,
      hl.career_of_not_mem (by simp [hnone]),
      Episode.noticesOf_of_launched hacts hown hp, notices_of_not_started hnot']
    rfl
  · exact hl'.watched (hm.holds hholds hdeed) hlater
      (hback ▸ List.mem_append_right _ hp)
  · intro hgone hnone
    rw [career_eq_filter hnot'] at hnone
    exact hgone ((hl'.holds (hm.holds hholds hdeed) hlater).2 ▸
      mem_trackedFrom_of_unconcerned (hback ▸ List.mem_append_right _ hp) hnone)

end

end Shell

end TinyShell
