import TinyShell.Proofs.Rehearsal.Launch
import TinyShell.Proofs.Shell.Verdict

/-!
# What a rehearsal executes

`Job.run_rehearsed`: which programs a parsed command executes in a rehearsal, how many children it
starts and with which status it ends, said of the command alone. The entries that count are those up
to the first `quit` or `exit` (`Command.heeded`), each child becomes the program of its own command
or none (`Recorder.execution?`), and the last child of the last entry has the say
(`Recorder.entryStatus`).
-/

namespace TinyShell

open TinyShell.Action (ComesTo Rehearsed)

/-- The commands of an entry that get a child. A builtin gets none, but as a stage it is a program
like any other. -/
def Command.children : Command → List SimpleCommand
  | .simple command => if command.builtin?.isSome then [] else [command]
  | .pipeline stages => stages.stages
  | .empty _ | .invalid _ | .list .. => []

namespace Recorder

/-- The status that an entry comes to, if the shell is still there then. -/
def entryStatus (recorder : Recorder) : Command → Status
  | .empty _ => nothingToRun
  | .invalid _ => notStarted
  | .simple command =>
    if command.builtin?.isSome || command.background then 0 else recorder.outcome command
  | .pipeline pipeline =>
    if pipeline.isBackground then 0
    else (pipeline.stages.getLast?.map recorder.outcome).getD nothingToRun
  | .list .. => 0

/-- What decides about children: it stays the same in a rehearsal. -/
def settings (recorder : Recorder) : Recorder where
  missing := recorder.missing
  badPaths := recorder.badPaths
  failFork := recorder.failFork
  execStatus := recorder.execStatus
  replaced := recorder.replaced

/-- A process that can start children. -/
structure Ready (recorder : Recorder) : Prop where
  awake : recorder.replaced = false
  forks : recorder.failFork = false

variable {recorder recorder' between after after' : Recorder} {commands : List SimpleCommand}

theorem congr_settings {α : Type} (f : Recorder → α)
    (hf : ∀ recorder, f (settings recorder) = f recorder)
    (h : recorder.settings = after.settings) : f recorder = f after := by
  rw [← hf recorder, h, hf]

theorem Ready.congr (h : recorder.Ready) (hs : after.settings = recorder.settings) :
    after.Ready where
  awake := (congr_settings replaced (fun _ => rfl) hs).trans h.awake
  forks := (congr_settings failFork (fun _ => rfl) hs).trans h.forks

theorem settings_of_gist (h : recorder.gist = after.gist) : recorder.settings = after.settings :=
  congr_gist settings (fun _ => rfl) h

/-! ## Children of these commands -/

/-- The recorder has seen the children of these commands, and nobody else's. -/
structure Launched (recorder : Recorder) (commands : List SimpleCommand) (after : Recorder) :
    Prop where
  settings : after.settings = recorder.settings
  programs : after.record.programs =
    recorder.record.programs ++ commands.filterMap recorder.execution?
  forks : after.record.forks = recorder.record.forks + commands.length

theorem programs_gist (recorder : Recorder) :
    recorder.gist.record.programs = recorder.record.programs := by
  simp only [gist, Record.programs, List.filterMap_filter]
  congr 1
  funext event
  cases event <;> rfl

theorem forks_gist (recorder : Recorder) : recorder.gist.record.forks = recorder.record.forks := by
  simp only [gist, Record.forks, List.countP_filter]
  congr 1
  funext event
  cases event <;> rfl

namespace Launched

theorem refl (recorder : Recorder) : Launched recorder [] recorder := ⟨rfl, by simp, rfl⟩

theorem of_gist (h : Launched recorder commands after) (hg : after'.gist = after.gist) :
    Launched recorder commands after' where
  settings := (settings_of_gist hg).trans h.settings
  programs := (congr_gist (·.record.programs) programs_gist hg).trans h.programs
  forks := (congr_gist (·.record.forks) forks_gist hg).trans h.forks

theorem of_gist_left (h : Launched recorder' commands after)
    (hg : recorder'.gist = recorder.gist) : Launched recorder commands after where
  settings := h.settings.trans (settings_of_gist hg)
  programs := by
    rw [h.programs, congr_gist (·.record.programs) programs_gist hg,
      congr_gist execution? (fun _ => rfl) hg]
  forks := by rw [h.forks, congr_gist (·.record.forks) forks_gist hg]

theorem trans {others : List SimpleCommand} (h : Launched recorder commands between)
    (h' : Launched between others after) : Launched recorder (commands ++ others) after where
  settings := h'.settings.trans h.settings
  programs := by
    have hsame : between.execution? = recorder.execution? :=
      congr_settings execution? (fun _ => rfl) h.settings
    rw [h'.programs, h.programs, hsame, List.filterMap_append, List.append_assoc]
  forks := by rw [h'.forks, h.forks, List.length_append, Nat.add_assoc]

theorem launch (h : recorder.replaced = false) (command : SimpleCommand) :
    Launched recorder [command] (recorder.launch command) where
  settings := congrArg (fun replaced => { recorder.settings with replaced }) h.symm
  programs := by
    have hsame (pid : Pid) : ({ recorder.addEvent (.forked pid) with lastPid := pid } :
        Recorder).execution? command = recorder.execution? command := rfl
    simp only [Recorder.launch, finish, perform, hsame]
    rcases hx : recorder.execution? command with _ | ⟨program, argv⟩ <;>
      simp [addEvent, Record.addEvent, Record.programs, hx]
  forks := by
    simp only [Recorder.launch, finish, perform, Record.forks]
    rw [List.countP_append, List.countP_map]
    simp [addEvent, Record.addEvent]

theorem foldl (h : recorder.replaced = false) (commands : List SimpleCommand) :
    Launched recorder commands (commands.foldl Recorder.launch recorder) := by
  induction commands generalizing recorder with
  | nil => exact .refl recorder
  | cons command rest ih =>
    have hfirst := launch h command
    have hawake : (recorder.launch command).replaced = false :=
      (congr_settings replaced (fun _ => rfl) hfirst.settings).trans h
    exact hfirst.trans (ih hawake)

end Launched

theorem foldl_launch_congr (h : recorder.gist = after.gist) (commands : List SimpleCommand) :
    (commands.foldl launch recorder).gist = (commands.foldl launch after).gist := by
  induction commands generalizing recorder after with
  | nil => exact h
  | cons command rest ih => exact ih (launch_congr h command)

/-! ## The numbers of children -/

/-- The numbers of so many children. -/
def pidsFrom (last : Pid) : Nat → List Pid
  | 0 => []
  | count + 1 => (last + 1) :: pidsFrom (last + 1) count

theorem mem_pidsFrom {last pid : Pid} {count : Nat} (h : pid ∈ pidsFrom last count) :
    ∃ i, 0 < i ∧ i ≤ count ∧ pid = last + Int32.ofNat i := by
  induction count generalizing last with
  | zero => cases h
  | succ count ih =>
    rcases List.mem_cons.1 h with rfl | h
    · exact ⟨1, by omega, by omega, rfl⟩
    · obtain ⟨i, hpos, hle, rfl⟩ := ih h
      refine ⟨i + 1, by omega, by omega, ?_⟩
      rw [Int32.ofNat_add, Int32.add_assoc, Int32.add_comm 1]
      rfl

/-- A number comes back only after all others. -/
theorem notMem_pidsFrom (last : Pid) {count : Nat} (h : count < Int32.size) :
    last ∉ pidsFrom last count := by
  intro hm
  obtain ⟨i, hpos, hle, heq⟩ := mem_pidsFrom hm
  have hzero : Int32.ofNat i = 0 := by
    have : last + 0 = last + Int32.ofNat i := by rwa [Int32.add_zero]
    exact (Int32.add_right_inj last).1 this.symm
  have hmod : i % Int32.size = 0 := by
    have := congrArg (fun n : Int32 => n.toBitVec.toNat) hzero
    simpa using this
  rw [Nat.mod_eq_of_lt (Nat.lt_of_le_of_lt hle h)] at hmod
  omega

theorem pidsFrom_nodup (last : Pid) {count : Nat} (h : count < Int32.size) :
    (pidsFrom last count).Nodup := by
  induction count generalizing last with
  | zero => exact List.nodup_nil
  | succ count ih =>
    exact List.nodup_cons.2 ⟨notMem_pidsFrom (last + 1) (by omega), ih (last + 1) (by omega)⟩

theorem launch_lastPid (recorder : Recorder) (command : SimpleCommand) :
    (recorder.launch command).lastPid = recorder.lastPid + 1 := rfl

theorem launch_lookup (h : recorder.replaced = false) (command : SimpleCommand) (pid : Pid) :
    (recorder.launch command).ended.lookup pid =
      if pid = recorder.lastPid + 1 then some (recorder.outcome command)
      else recorder.ended.lookup pid := by
  simp only [launch, finish, perform, addEvent, h, lookup_cons_ite, lookup_filter_ne,
    Bool.false_eq_true, if_false]
  split <;> rfl

/-- Later children do not touch what is known of earlier ones. -/
theorem foldl_launch_lookup (h : recorder.replaced = false) (commands : List SimpleCommand)
    {pid : Pid} (hp : pid ∉ pidsFrom recorder.lastPid commands.length) :
    (commands.foldl launch recorder).ended.lookup pid = recorder.ended.lookup pid := by
  induction commands generalizing recorder with
  | nil => rfl
  | cons command rest ih =>
    obtain ⟨hne, hrest⟩ := not_or.1 (mt List.mem_cons.2 hp)
    have hawake : (recorder.launch command).replaced = false :=
      (congr_settings replaced (fun _ => rfl) (Launched.launch h command).settings).trans h
    rw [List.foldl_cons, ih hawake (by rwa [launch_lastPid]), launch_lookup h, if_neg hne]

/-- Each of the children is kept with its status. -/
theorem foldl_launch_forall (h : recorder.replaced = false) {commands : List SimpleCommand}
    (hn : commands.length < Int32.size) :
    List.Forall₂ (fun pid command => (commands.foldl launch recorder).ended.lookup pid =
      some (recorder.outcome command)) (pidsFrom recorder.lastPid commands.length) commands := by
  induction commands generalizing recorder with
  | nil => exact .nil
  | cons command rest ih =>
    rw [List.length_cons] at hn
    have hsettings := (Launched.launch h command).settings
    have hawake : (recorder.launch command).replaced = false :=
      (congr_settings replaced (fun _ => rfl) hsettings).trans h
    have houtcome : (recorder.launch command).outcome = recorder.outcome :=
      congr_settings outcome (fun _ => rfl) hsettings
    have hrest := ih hawake (by omega)
    rw [launch_lastPid, houtcome] at hrest
    refine .cons ?_ hrest
    have hlater : recorder.lastPid + 1 ∉ pidsFrom (recorder.lastPid + 1) rest.length :=
      notMem_pidsFrom _ (by omega)
    rw [List.foldl_cons, foldl_launch_lookup hawake rest (by rwa [launch_lastPid]),
      launch_lookup h, if_pos rfl]

/-- The recorder without a child that was waited for. -/
def forget (recorder : Recorder) (pid : Pid) : Recorder :=
  { recorder with ended := recorder.ended.filter (·.1 ≠ pid) }

theorem Launched.forget (h : Launched recorder commands after) (pids : List Pid) :
    Launched recorder commands (pids.foldl Recorder.forget after) := by
  induction pids generalizing after with
  | nil => exact h
  | cons pid rest ih => exact ih ⟨h.settings, h.programs, h.forks⟩

theorem foldl_forget_congr (h : recorder.gist = after.gist) (pids : List Pid) :
    (pids.foldl forget recorder).gist = (pids.foldl forget after).gist := by
  induction pids generalizing recorder after with
  | nil => exact h
  | cons pid rest ih => exact ih (congrArg (Recorder.forget · pid) h)

end Recorder

open Recorder (Launched Ready pidsFrom)

namespace Job

variable {α : Type} {recorder : Recorder}

/-! ## Waiting -/

theorem waitFor_rehearsed {pid : Pid} {status : Status}
    (h : recorder.ended.lookup pid = some status) :
    Rehearsed (waitFor pid) recorder (.returned status) (recorder.forget pid) := by
  have hanswer : Recorder.host.answer (.wait pid) recorder =
      (.ok status, (recorder.addEvent (.asked (.wait pid))).forget pid) := by
    simp [Recorder.host, Recorder.answer, Recorder.collect, Recorder.addEvent, Recorder.forget, h]
  refine ⟨_, .bind (.call hanswer) (.pure _ _), ?_⟩
  simp [Recorder.gist, Recorder.forget, Recorder.addEvent, Record.addEvent, Event.isLaunch]

/-- The last child has the say. -/
theorem waitForAll_rehearsed {known : Pid → Option Status} {outcome : SimpleCommand → Status}
    {pids : List Pid} {commands : List SimpleCommand}
    (hk : List.Forall₂ (fun pid command => known pid = some (outcome command)) pids commands)
    (hn : pids.Nodup) (h : ∀ pid ∈ pids, recorder.ended.lookup pid = known pid) (last : Status) :
    Rehearsed (waitForAll last pids) recorder
      (.returned ((commands.getLast?.map outcome).getD last)) (pids.foldl .forget recorder) := by
  induction hk generalizing recorder last with
  | nil => exact .pure _ _
  | @cons pid command pids commands hfirst _ ih =>
    obtain ⟨hpid, hn⟩ := List.nodup_cons.1 hn
    obtain ⟨hlookup, h⟩ := List.forall_mem_cons.1 h
    refine .bind (waitFor_rehearsed (hlookup.trans hfirst)) fun actual hg => ?_
    have hended : actual.ended = (recorder.forget pid).ended :=
      Recorder.congr_gist Recorder.ended (fun _ => rfl) hg
    have hrest : Rehearsed (waitForAll (outcome command) pids) actual
        (.returned ((commands.getLast?.map outcome).getD (outcome command)))
        (pids.foldl .forget actual) := by
      refine ih hn (fun other ho => ?_) (outcome command)
      -- to forget the first child leaves the others where they were
      have hne : other ≠ pid := fun heq => hpid (heq ▸ ho)
      rw [hended, Recorder.forget, Recorder.lookup_filter_ne, if_neg hne, h other ho]
    have hstatus : (((command :: commands).getLast?).map outcome).getD last =
        (commands.getLast?.map outcome).getD (outcome command) := by
      rw [List.getLast?_cons]
      cases commands.getLast? <;> rfl
    rw [hstatus]
    exact hrest.congr (Recorder.foldl_forget_congr hg pids)

/-! ## Starting children -/

theorem track_rehearsed (shell : Shell) (pids : List Pid) (recorder : Recorder) :
    Rehearsed (track shell pids) recorder
      (.returned { shell with background := shell.background ++ pids }) recorder := by
  induction pids generalizing shell recorder with
  | nil =>
    rw [List.append_nil]
    exact .pure shell recorder
  | cons pid rest ih =>
    refine .bind (.display ..) fun actual hg => ?_
    have hrest := ih { shell with background := shell.background ++ [pid] } actual
    simp only [List.append_assoc, List.singleton_append] at hrest
    exact hrest.congr hg

theorem runProgram_rehearsed (shell : Shell) {command : SimpleCommand} (hne : command.argv ≠ [])
    (hs : command.slots.Shaped) (hready : recorder.Ready) : ∃ result after,
      Rehearsed (runProgram shell command) recorder (.returned result) after ∧
      Launched recorder [command] after ∧
      result.1 = if command.background then 0 else recorder.outcome command := by
  have hlaunched := Launched.launch hready.awake command
  have hfork := Child.ofCommand_launched hne hs hready.forks hready.awake
  by_cases hb : command.background
  · let after : Shell := { shell with background := shell.background ++ [recorder.lastPid + 1] }
    refine ⟨(0, after), recorder.launch command, .bind hfork fun actual hg => ?_, hlaunched,
      (if_pos hb).symm⟩
    simp only [hb, if_true]
    refine .bind (track_rehearsed shell _ actual) fun last hg' => ?_
    exact (Rehearsed.pure _ last).congr (hg'.trans hg)
  · have hlookup : (recorder.launch command).ended.lookup (recorder.lastPid + 1) =
        some (recorder.outcome command) := by
      rw [Recorder.launch_lookup hready.awake, if_pos rfl]
    refine ⟨(recorder.outcome command, shell),
      (recorder.launch command).forget (recorder.lastPid + 1), .bind hfork fun actual hg => ?_,
      hlaunched.forget [_], (if_neg hb).symm⟩
    have hended : actual.ended = (recorder.launch command).ended :=
      Recorder.congr_gist Recorder.ended (fun _ => rfl) hg
    simp only [hb, Bool.false_eq_true, if_false]
    refine .bind (waitFor_rehearsed (hended ▸ hlookup)) fun last hg' => ?_
    refine (Rehearsed.pure _ last).congr (hg'.trans ?_)
    exact Recorder.foldl_forget_congr hg [_]

theorem makePipes_rehearsed (count : Nat) (recorder : Recorder) :
    ∃ pipes, Rehearsed (makePipes count) recorder (.returned (pipes, none)) recorder := by
  induction count generalizing recorder with
  | zero => exact ⟨[], .pure _ _⟩
  | succ count ih =>
    obtain ⟨pipes, actual, hc, hg⟩ := ih (Recorder.answer .pipe recorder).2
    refine ⟨_, actual, .bind (.call rfl) (.bind hc (.pure _ _)), ?_⟩
    exact hg.trans (Recorder.answer_gist rfl recorder)

theorem spawnStages_rehearsed (pipes : List Pipe) (before : Option Pipe) (after : List Pipe)
    {stages : List SimpleCommand} (hs : ∀ stage ∈ stages, stage.slots.Shaped)
    (hready : recorder.Ready) :
    Rehearsed (spawnStages pipes before after stages) recorder
      (.returned (pidsFrom recorder.lastPid stages.length, false))
      (stages.foldl .launch recorder) := by
  induction stages generalizing before after recorder with
  | nil => exact .pure _ _
  | cons stage rest ih =>
    obtain ⟨hstage, hrest⟩ := List.forall_mem_cons.1 hs
    refine .bind (Child.ofStage_launched pipes before after.head? hstage hready.forks hready.awake)
      fun actual hg => ?_
    have hsettings := (Launched.launch hready.awake stage).of_gist hg |>.settings
    have hpid : actual.lastPid = recorder.lastPid + 1 :=
      Recorder.congr_gist Recorder.lastPid (fun _ => rfl) hg
    refine .bind (ih after.head? after.tail hrest (hready.congr hsettings)) fun last hg' => ?_
    rw [hpid]
    exact (Rehearsed.pure _ last).congr (hg'.trans (Recorder.foldl_launch_congr hg rest))

theorem conclude_rehearsed (shell : Shell) (pipeline : Pipeline)
    (hne : pipeline.stages ≠ []) (hn : pipeline.length < Int32.size) {before : Recorder}
    (hawake : before.replaced = false)
    (hg : recorder.gist = (pipeline.stages.foldl .launch before).gist) : ∃ result after,
      Rehearsed (conclude shell pipeline (pidsFrom before.lastPid pipeline.length) false) recorder
        (.returned result) after ∧
      Launched before pipeline.stages after ∧
      result.1 = before.entryStatus (.pipeline pipeline) := by
  have hlaunched := Launched.foldl hawake pipeline.stages
  let pids := pidsFrom before.lastPid pipeline.length
  by_cases hb : pipeline.isBackground
  · refine ⟨(0, { shell with background := shell.background ++ pids }), recorder, ?_,
      hlaunched.of_gist hg, ?_⟩
    · simp only [conclude, hb, Bool.not_false, Bool.and_self, if_true]
      refine .bind (track_rehearsed shell _ recorder) fun last hg' => ?_
      exact (Rehearsed.pure _ last).congr hg'
    · simp only [Recorder.entryStatus, hb, if_true]
  · have hended : recorder.ended = (pipeline.stages.foldl .launch before).ended :=
      Recorder.congr_gist Recorder.ended (fun _ => rfl) hg
    have hwait : Rehearsed (waitForAll 0 pids) recorder
        (.returned ((pipeline.stages.getLast?.map before.outcome).getD 0))
        (pids.foldl .forget recorder) :=
      waitForAll_rehearsed (Recorder.foldl_launch_forall hawake hn)
        (Recorder.pidsFrom_nodup _ hn) (fun pid _ => by rw [hended]) 0
    refine ⟨((pipeline.stages.getLast?.map before.outcome).getD 0, shell),
      pids.foldl .forget recorder, ?_, (hlaunched.of_gist hg).forget pids, ?_⟩
    · simp only [conclude, hb, Bool.false_and, Bool.false_eq_true, if_false]
      refine .bind hwait fun last hg' => ?_
      exact (Rehearsed.pure _ last).congr hg'
    · simp [Recorder.entryStatus, hb, List.getLast?_eq_some_getLast hne]

theorem runPipeline_rehearsed (shell : Shell) {pipeline : Pipeline} (hs : pipeline.Shaped)
    (hready : recorder.Ready) : ∃ result after,
      Rehearsed (runPipeline shell pipeline) recorder (.returned result) after ∧
      Launched recorder pipeline.stages after ∧
      result.1 = recorder.entryStatus (.pipeline pipeline) := by
  have hne : pipeline.stages ≠ [] := by
    have := hs.two_le
    exact List.ne_nil_of_length_pos (by rw [← Pipeline.length]; omega)
  have hn : pipeline.length < Int32.size := Nat.lt_of_le_of_lt hs.length_le (by decide)
  obtain ⟨pipes, piped, hpipes, hg₁⟩ := makePipes_rehearsed (pipeline.length - 1) recorder
  have hready₁ : piped.Ready := hready.congr (Recorder.settings_of_gist hg₁)
  obtain ⟨spawned, hspawn, hg₂⟩ := spawnStages_rehearsed pipes none pipes
    (fun stage hm => (hs.stages stage hm).slots) hready₁
  obtain ⟨closed, hclose, hg₃⟩ := Child.closePipes_rehearsed pipes spawned
  have hsame : piped.entryStatus = recorder.entryStatus :=
    Recorder.congr_gist Recorder.entryStatus (fun _ => rfl) hg₁
  obtain ⟨result, after, ⟨actual, hc, hg⟩, hlaunched, hstatus⟩ :=
    conclude_rehearsed shell pipeline hne hn hready₁.awake (hg₃.trans hg₂)
  refine ⟨result, after, ⟨actual, ?_, hg⟩, hlaunched.of_gist_left hg₁, hstatus.trans ?_⟩
  · rw [runPipeline_eq hne]
    refine hpipes.bind ?_
    rw [runStages_eq]
    exact hspawn.bind (hclose.bind hc)
  · rw [hsame]

/-! ## Entries -/

/-- How an entry ends, and what the recorder has seen then. -/
def Executes (action : Action (Status × Shell)) (recorder : Recorder)
    (children : List SimpleCommand) (status : Status) : Prop :=
  ∃ ending after, Rehearsed action recorder ending after ∧ Launched recorder children after ∧
    ∀ result, ending = .returned result → result.1 = status

namespace Executes

variable {action : Action (Status × Shell)} {children : List SimpleCommand} {status : Status}

theorem of_returned {result : Status × Shell} {after : Recorder}
    (h : Rehearsed action recorder (.returned result) after)
    (hl : Launched recorder children after) (hs : result.1 = status) :
    Executes action recorder children status := by
  refine ⟨_, after, h, hl, fun result' heq => ?_⟩
  obtain rfl : result = result' := by simpa using heq
  exact hs

/-- What is only noted or reported before does not count. -/
theorem after {before : Action α} {next : α → Action (Status × Shell)} {value : α}
    (h : Rehearsed before recorder (.returned value) recorder)
    (hn : ∀ actual, actual.gist = recorder.gist → Executes (next value) actual children status) :
    Executes (before >>= next) recorder children status := by
  obtain ⟨actual, hc, hg⟩ := h
  obtain ⟨ending, last, ⟨actual', hc', hg'⟩, hlaunched, hs⟩ := hn actual hg
  exact ⟨ending, last, ⟨actual', hc.bind hc', hg'⟩, hlaunched.of_gist_left hg, hs⟩

end Executes

theorem builtin_executes (shell : Shell) (argv : List String) (builtin : Builtin)
    (recorder : Recorder) : Executes (builtin.run shell argv) recorder [] 0 := by
  have hreturn (shell : Shell) (recorder : Recorder) :
      Executes (pure (0, shell)) recorder [] 0 :=
    .of_returned (.pure _ _) (.refl recorder) rfl
  rcases builtin with _ | _ | _
  · refine .after (.call rfl rfl) fun actual _ => ?_
    rcases (Recorder.answer (.changeDirectory _) recorder).1 with errno | _
    · exact .after (.report ..) fun actual _ => hreturn shell actual
    · exact hreturn shell actual
  · refine .after (.log ..) fun actual _ => ?_
    exact ⟨_, actual, ⟨actual, .exit _ _, rfl⟩, .refl actual, fun _ h => nomatch h⟩
  · exact hreturn _ recorder

theorem runSimple_executes (shell : Shell) {command : SimpleCommand} (hne : command.argv ≠ [])
    (hs : command.slots.Shaped) (hready : recorder.Ready) :
    Executes (runSimple shell command) recorder (Command.children (.simple command))
      (recorder.entryStatus (.simple command)) := by
  rcases hb : command.builtin? with _ | builtin
  · rw [runSimple_program shell hne hb]
    simp only [Command.children, Recorder.entryStatus, hb, Option.isSome_none, Bool.false_eq_true,
      if_false, Bool.false_or]
    refine .after (.log ..) fun actual hg => ?_
    have hready : actual.Ready := hready.congr (Recorder.settings_of_gist hg)
    obtain ⟨result, after, hrun, hlaunched, hstatus⟩ := runProgram_rehearsed shell hne hs hready
    have houtcome : actual.outcome = recorder.outcome :=
      Recorder.congr_gist Recorder.outcome (fun _ => rfl) hg
    exact .of_returned hrun hlaunched (houtcome ▸ hstatus)
  · rw [runSimple_builtin shell hb]
    simp only [Command.children, Recorder.entryStatus, hb, Option.isSome_some, if_true,
      Bool.true_or]
    exact .after (.log ..) fun actual _ => builtin_executes shell _ builtin actual

theorem entry_executes (shell : Shell) {entry : Command} (h : entry.Entry)
    (hready : recorder.Ready) :
    Executes (run shell entry) recorder entry.children (recorder.entryStatus entry) := by
  cases h with
  | simple hne hs => exact runSimple_executes shell hne hs.slots hready
  | pipeline hs =>
    obtain ⟨result, after, hrun, hlaunched, hstatus⟩ := runPipeline_rehearsed shell hs hready
    exact .of_returned hrun hlaunched hstatus

/-- What a command that was run has made of the shell is as its verdict says. -/
theorem met_of_comesTo {shell : Shell} (hr : shell.running) {command : Command}
    {ending : Ending (Status × Shell)} {after : Recorder}
    (h : ComesTo Recorder.host (run shell command) recorder ending after) :
    command.verdict.Met shell ending := by
  obtain ⟨least, hl⟩ := h
  exact run_met hr command _ _ _ _ _ _ (hl least (Nat.le_refl least))

/-- The entries that are heeded are executed one after the other, and no others. -/
theorem runEntries_executes {shell : Shell} (hr : shell.running) (last : Status)
    {entries : List Command} (h : ∀ entry ∈ entries, entry.Entry) (hready : recorder.Ready) :
    Executes (runEntries shell last entries) recorder
      ((Command.heeded entries).flatMap Command.children)
      (((Command.heeded entries).getLast?.map recorder.entryStatus).getD last) := by
  -- the others are not looked at, so each entry but the last one is known to let the shell go on
  rw [← runEntries_heeded]
  induction entries generalizing shell recorder last with
  | nil => exact .of_returned (.pure _ _) (.refl recorder) rfl
  | cons entry rest ih =>
    obtain ⟨hentry, hrest⟩ := List.forall_mem_cons.1 h
    have hfirst := entry_executes shell hentry hready
    by_cases hv : entry.verdict = .goOn
    · obtain ⟨ending, after, ⟨actual, hc, hg⟩, hlaunched, hstatus⟩ := hfirst
      have hmet := met_of_comesTo hr hc
      rw [hv] at hmet
      rcases ending with ⟨status, ready⟩ | status
      · obtain rfl : status = recorder.entryStatus entry := hstatus _ rfl
        have hgo : ready.running := hmet.unmoved.running.trans hr
        have hlaunched := hlaunched.of_gist hg
        obtain ⟨ending, last', hrun, hl, hs⟩ := ih hgo (recorder.entryStatus entry) hrest
          (hready.congr hlaunched.settings)
        have hsame : actual.entryStatus = recorder.entryStatus :=
          Recorder.congr_settings Recorder.entryStatus (fun _ => rfl) hlaunched.settings
        obtain ⟨last, hc', hg'⟩ := hrun
        rw [Command.heeded_cons_goOn hv, runEntries, List.flatMap_cons]
        refine ⟨ending, last', ⟨last, hc.bind ?_, hg'⟩, hlaunched.trans hl, fun result he => ?_⟩
        · simpa only [hgo, if_true] using hc'
        · rw [hs result he, hsame, List.getLast?_cons]
          cases (Command.heeded rest).getLast? <;> rfl
      · cases hmet
    · rw [Command.heeded_cons_stop hv, runEntries_singleton, List.flatMap_singleton]
      exact hfirst

/-- Any command that a line can be parsed to. -/
theorem wellFormed_executes {shell : Shell} (hr : shell.running) {command : Command}
    (h : command.WellFormed) (hready : recorder.Ready) :
    ∃ last, (Command.heeded command.entries).getLast? = some last ∧
      Executes (run shell command) recorder
        ((Command.heeded command.entries).flatMap Command.children)
        (recorder.entryStatus last) := by
  cases h with
  | @empty faults =>
    have hentries : (Command.empty faults).entries = [.empty faults] := rfl
    rw [hentries, Command.heeded_singleton]
    exact ⟨_, rfl, .of_returned (.pure _ _) (.refl recorder) rfl⟩
  | @invalid faults =>
    have hentries : (Command.invalid faults).entries = [.invalid faults] := rfl
    rw [hentries, Command.heeded_singleton]
    exact ⟨_, rfl, .after (.report ..) fun actual _ =>
      .of_returned (.pure _ _) (.refl actual) rfl⟩
  | entry h =>
    have hentries : command.entries = [command] := by cases h <;> rfl
    rw [hentries, Command.heeded_singleton, List.flatMap_singleton]
    exact ⟨command, rfl, entry_executes shell h hready⟩
  | @list entries faults hne hentries _ _ _ =>
    have hlast := List.getLast?_eq_some_getLast (Command.heeded_ne_nil hne)
    have hlist := runEntries_executes hr 0 hentries hready
    rw [hlast] at hlist
    exact ⟨_, hlast, hlist⟩

/-- In a rehearsal that starts children, a parsed command executes the programs of the entries that
are heeded, in order and nothing else. Each of their children counts, and the last entry has the say
unless the process ends before. -/
theorem run_rehearsed (list : TokenList) {shell : Shell} (hr : shell.running)
    (hawake : recorder.replaced = false) (hf : recorder.failFork = false) :
    let command := Command.parse list
    let heeded := Command.heeded command.entries
    ∃ ending after, ComesTo Recorder.host (run shell command) recorder ending after ∧
      after.record.programs = recorder.record.programs ++
        (heeded.flatMap Command.children).filterMap recorder.execution? ∧
      after.record.forks = recorder.record.forks + (heeded.flatMap Command.children).length ∧
      ((∃ status, ending = .exited status) ↔
        ∃ command, .simple command ∈ heeded ∧ command.name? = some "exit") ∧
      ∀ status shell', ending = .returned (status, shell') →
        ∃ last, heeded.getLast? = some last ∧ status = recorder.entryStatus last := by
  intro command heeded
  have hwell : command.WellFormed := (Command.parse_fits list).1
  obtain ⟨last, hlast, ending, after, ⟨actual, hc, hg⟩, hlaunched, hstatus⟩ :=
    wellFormed_executes hr hwell ⟨hawake, hf⟩
  have hlaunched := hlaunched.of_gist hg
  refine ⟨ending, actual, hc, hlaunched.programs, hlaunched.forks, ?_,
    fun status shell' he => ⟨last, hlast, hstatus _ he⟩⟩
  rw [(met_of_comesTo hr hc).exited_iff, ← Command.verdicts_entries]
  exact Command.verdicts_eq_leave hwell.single

/-- A program that is not found, a builtin, a stage whose input is not found, and a list cut off by
`quit`. -/
theorem run_rehearsed_quit :
    let command := Command.parse (.ofLine "who; cd /tmp; cat < notes | sort; quit 3; ls")
    let recorder : Recorder := { missing := ["who"], badPaths := ["notes"], execStatus := 7 }
    recorder.replaced = false ∧ recorder.failFork = false ∧ ∃ shell after,
      ComesTo Recorder.host (run {} command) recorder (.returned (0, shell)) after ∧
      after.record.programs = [("sort", ["sort"])] ∧ after.record.forks = 3 := by
  intro command recorder
  refine ⟨rfl, rfl, ?_⟩
  have hprograms : ((Command.heeded command.entries).flatMap Command.children).filterMap
      recorder.execution? = [("sort", ["sort"])] := by decide +kernel
  have hforks : ((Command.heeded command.entries).flatMap Command.children).length = 3 := by
    decide +kernel
  have hstatus : (Command.heeded command.entries).getLast?.map recorder.entryStatus = some 0 := by
    decide +kernel
  have hstays : ¬∃ status, Command.verdicts command.entries = .leave status := by
    have hquit : Command.verdicts command.entries = .stop (some 3) := by decide +kernel
    simp [hquit]
  obtain ⟨ending, after, hc, hp, hf, hexit, hlast⟩ :=
    @run_rehearsed recorder (.ofLine "who; cd /tmp; cat < notes | sort; quit 3; ls") {} rfl rfl rfl
  rcases ending with ⟨status, shell⟩ | status
  · obtain ⟨last, hl, rfl⟩ := hlast status shell rfl
    obtain hzero : recorder.entryStatus last = 0 := by simpa [command, hl] using hstatus
    refine ⟨shell, after, hzero ▸ hc, ?_, ?_⟩
    · rw [hp]
      exact hprograms
    · rw [hf]
      exact congrArg (0 + ·) hforks
  · rw [Command.verdicts_eq_leave (Command.parse_fits _).1.single] at hstays
    exact absurd (hexit.1 ⟨status, rfl⟩) hstays

end Job

end TinyShell
