import TinyShell.Proofs.Action.Contract
import TinyShell.Proofs.Command.Writing
import TinyShell.Proofs.Shell.Pipeline

/-!
# What a command decides

Only two builtins have a say in whether the shell goes on: `quit` stops it, `exit` ends its process.
`Command.verdict` reads that off a command without running it.

* `Job.run_met`: whatever the system answers, a command that is run does what its verdict says, and
  nothing else about it matters to the shell.
* `Job.runEntries_heeded`: a list of commands is the list up to the first of them that does not let
  the shell go on. What stands behind it is never looked at.
-/

namespace TinyShell

/-- What becomes of the shell that runs a command. -/
inductive Verdict where
  | goOn
  /-- The shell is to stop, with this status if the command names one. -/
  | stop (status : Option Status)
  /-- The process of the shell ends. -/
  | leave (status : Status)
  deriving DecidableEq, Repr

/-- The builtin that a command names. -/
def SimpleCommand.builtin? (command : SimpleCommand) : Option Builtin :=
  command.name?.bind Builtin.ofName?

/-- The verdict of a command that stands alone or in a list. As a stage of a pipeline it has none,
since there it names a program. -/
def SimpleCommand.verdict (command : SimpleCommand) : Verdict :=
  match command.builtin? with
  | some .quit => .stop (command.argv[1]?.map Builtin.statusOf)
  | some .exit => .leave ((command.argv[1]?.map Builtin.statusOf).getD 0)
  | some .cd | none => .goOn

/-- The shell after a command that left its course alone. -/
structure Shell.Unmoved (shell after : Shell) : Prop where
  running : after.running = shell.running
  lastStatus : after.lastStatus = shell.lastStatus

theorem Shell.Unmoved.refl (shell : Shell) : shell.Unmoved shell := ⟨rfl, rfl⟩

/-- The shell after a command that changed nothing about it but its children in the background. -/
def Shell.Recruits (shell after : Shell) : Prop := ∃ background, after = { shell with background }

theorem Shell.Recruits.refl (shell : Shell) : shell.Recruits shell := ⟨shell.background, rfl⟩

theorem Shell.Recruits.unmoved {shell after : Shell} (h : shell.Recruits after) :
    shell.Unmoved after := by
  obtain ⟨background, rfl⟩ := h
  exact ⟨rfl, rfl⟩

/-- A command that was run on this shell has ended as its verdict says. -/
inductive Verdict.Met (shell : Shell) : Verdict → Ending (Status × Shell) → Prop
  | goOn {status : Status} {after : Shell} : shell.Unmoved after →
    Met shell .goOn (.returned (status, after))
  | stop {given : Option Status} {status : Status} {after : Shell} : after.running = false →
    after.lastStatus = given.getD shell.lastStatus →
      Met shell (.stop given) (.returned (status, after))
  | leave {status : Status} : Met shell (.leave status) (.exited status)

namespace Verdict.Met

variable {shell between after : Shell} {verdict : Verdict} {status : Status}
  {ending : Ending (Status × Shell)}

theorem of_unmoved (ending : Ending (Status × Shell))
    (h : ending.Returned fun result => shell.Unmoved result.2) : Met shell .goOn ending := by
  rcases ending with result | status
  · exact .goOn h
  · exact h.elim

theorem unmoved (h : Met shell .goOn (.returned (status, after))) : shell.Unmoved after := by
  cases h with
  | goOn h => exact h

theorem exited_iff (h : Met shell verdict ending) :
    (∃ status, ending = .exited status) ↔ ∃ status, verdict = .leave status := by
  cases h <;> simp

theorem stopped (h : Met shell verdict (.returned (status, after))) (hv : verdict ≠ .goOn) :
    after.running = false := by
  cases h with
  | goOn => exact absurd rfl hv
  | stop h _ => exact h

/-- What was done before does not matter, if it left the course of the shell alone. -/
theorem of_unmoved_left (h : Met between verdict ending) (hu : shell.Unmoved between) :
    Met shell verdict ending := by
  cases h with
  | goOn h => exact .goOn ⟨h.running.trans hu.running, h.lastStatus.trans hu.lastStatus⟩
  | stop h hs => exact .stop h (hu.lastStatus ▸ hs)
  | leave => exact .leave

end Verdict.Met

theorem Builtin.ofName?_eq_some {name : String} {builtin : Builtin} :
    ofName? name = some builtin ↔
      name = match builtin with
        | .cd => "cd"
        | .exit => "exit"
        | .quit => "quit" := by
  constructor
  · intro h
    unfold ofName? at h
    split at h <;> cases h <;> rfl
  · rintro rfl
    cases builtin <;> rfl

/-- Only `exit` ends the process. -/
theorem SimpleCommand.verdict_eq_leave {command : SimpleCommand} :
    (∃ status, command.verdict = .leave status) ↔ command.name? = some "exit" := by
  unfold verdict builtin?
  rcases command.name? with _ | name
  · simp
  · rw [Option.bind_some]
    rcases hb : Builtin.ofName? name with _ | builtin
    · have hne : name ≠ "exit" := by
        rintro rfl
        cases hb
      simp [hne]
    · rw [Builtin.ofName?_eq_some] at hb
      cases builtin <;> simp [hb]

/-- Only `quit` stops the shell. -/
theorem SimpleCommand.builtin?_of_stop {command : SimpleCommand} {given : Option Status}
    (h : command.verdict = .stop given) : command.builtin? = some .quit := by
  unfold verdict at h
  split at h <;> first | assumption | cases h

namespace Command

mutual

/-- The verdict of a command. -/
def verdict : Command → Verdict
  | .simple command => command.verdict
  | .list entries _ => verdicts entries
  | .empty _ | .invalid _ | .pipeline _ => .goOn

/-- The first verdict against going on, if there is one. -/
def verdicts : List Command → Verdict
  | [] => .goOn
  | entry :: rest =>
    match verdict entry with
    | .goOn => verdicts rest
    | verdict => verdict

end

/-- The entries of a list that are run: up to the first that does not let the shell go on. -/
def heeded : List Command → List Command
  | [] => []
  | entry :: rest => if entry.verdict = .goOn then entry :: heeded rest else [entry]

theorem heeded_cons_goOn {entry : Command} (h : entry.verdict = .goOn) (rest : List Command) :
    heeded (entry :: rest) = entry :: heeded rest := if_pos h

theorem heeded_cons_stop {entry : Command} (h : entry.verdict ≠ .goOn) (rest : List Command) :
    heeded (entry :: rest) = [entry] := if_neg h

theorem verdicts_cons_goOn {entry : Command} (h : entry.verdict = .goOn) (rest : List Command) :
    verdicts (entry :: rest) = verdicts rest := by
  rw [verdicts, h]

theorem verdicts_cons_stop {entry : Command} (h : entry.verdict ≠ .goOn) (rest : List Command) :
    verdicts (entry :: rest) = entry.verdict := by
  rw [verdicts]
  rcases hv : entry.verdict with _ | status | status
  · exact absurd hv h
  · rfl
  · rfl

theorem heeded_singleton (entry : Command) : heeded [entry] = [entry] := by
  by_cases hv : entry.verdict = .goOn
  · rw [heeded_cons_goOn hv]
    rfl
  · rw [heeded_cons_stop hv]

theorem heeded_ne_nil {entries : List Command} (h : entries ≠ []) : heeded entries ≠ [] := by
  obtain ⟨entry, rest, rfl⟩ := List.exists_cons_of_ne_nil h
  by_cases hv : entry.verdict = .goOn
  · rw [heeded_cons_goOn hv]
    exact List.cons_ne_nil _ _
  · rw [heeded_cons_stop hv]
    exact List.cons_ne_nil _ _

theorem verdicts_singleton (entry : Command) : verdicts [entry] = entry.verdict := by
  by_cases hv : entry.verdict = .goOn
  · rw [verdicts_cons_goOn hv, hv]
    rfl
  · rw [verdicts_cons_stop hv]

/-- The verdict of a command is that of its entries. -/
theorem verdicts_entries (command : Command) : verdicts command.entries = command.verdict := by
  cases command with
  | list entries => rfl
  | empty | invalid | simple | pipeline => exact verdicts_singleton _

/-- A command that is no list. -/
def Single : Command → Prop
  | .list .. => False
  | .empty _ | .invalid _ | .simple _ | .pipeline _ => True

/-- Parsed lists do not hold lists. -/
theorem WellFormed.single {command : Command} (h : command.WellFormed) :
    ∀ entry ∈ command.entries, entry.Single := by
  have hentry {entry : Command} (he : entry.Entry) : entry.Single := by cases he <;> trivial
  cases h with
  | empty | invalid => simp [entries, Single]
  | entry he =>
    have hentries : command.entries = [command] := by cases he <;> rfl
    simpa [hentries] using hentry he
  | list _ he => exact fun entry hm => hentry (he entry hm)

/-- The process ends at an `exit` that is not behind a `quit`. -/
theorem verdicts_eq_leave {entries : List Command} (h : ∀ entry ∈ entries, entry.Single) :
    (∃ status, verdicts entries = .leave status) ↔
      ∃ command, .simple command ∈ heeded entries ∧ command.name? = some "exit" := by
  have hone {entry : Command} (he : entry.Single) : (∃ status, entry.verdict = .leave status) ↔
      ∃ command, .simple command = entry ∧ command.name? = some "exit" := by
    cases entry with
    | simple command =>
      rw [verdict, SimpleCommand.verdict_eq_leave]
      simp
    | list => exact he.elim
    | empty | invalid | pipeline => simp [verdict]
  induction entries with
  | nil => simp [verdicts, heeded]
  | cons entry rest ih =>
    obtain ⟨hentry, hrest⟩ := List.forall_mem_cons.1 h
    by_cases hv : entry.verdict = .goOn
    · have hstays : ¬∃ command, .simple command = entry ∧ command.name? = some "exit" := by
        rw [← hone hentry, hv]
        simp
      rw [verdicts_cons_goOn hv, heeded_cons_goOn hv]
      simp only [List.mem_cons, or_and_right, exists_or, hstays, false_or]
      exact ih hrest
    · rw [verdicts_cons_stop hv, heeded_cons_stop hv, hone hentry]
      simp only [List.mem_singleton]

end Command

namespace Job

/-- A builtin in the place of a command. -/
theorem runSimple_builtin (shell : Shell) {command : SimpleCommand} {builtin : Builtin}
    (h : command.builtin? = some builtin) : runSimple shell command =
      Action.log ("builtin: " ++ Text.quoteList command.argv) >>= fun _ =>
        builtin.run shell command.argv := by
  obtain ⟨name, hn, hb⟩ := Option.bind_eq_some_iff.1 h
  simp only [runSimple, hn, hb]

/-- A program in the place of a command. -/
theorem runSimple_program (shell : Shell) {command : SimpleCommand} (hne : command.argv ≠ [])
    (h : command.builtin? = none) : runSimple shell command =
      Action.log ("run: " ++ Text.quoteList command.argv) >>= fun _ =>
        runProgram shell command := by
  obtain ⟨name, rest, hargv⟩ := List.exists_cons_of_ne_nil hne
  have hname : command.name? = some name := by simp [SimpleCommand.name?, hargv]
  have hb : Builtin.ofName? name = none := by simpa [SimpleCommand.builtin?, hname] using h
  simp only [runSimple, hname, hb]

open TinyShell.Action (Ensures Stays)

/-! ## What a command does to the shell -/

section
variable (shell : Shell)

theorem track_recruits {start : Shell} (hu : shell.Recruits start) (pids : List Pid) :
    Ensures (track start pids) (Ending.Returned shell.Recruits) := by
  induction pids generalizing start with
  | nil => exact .pure hu
  | cons pid rest ih =>
    obtain ⟨background, rfl⟩ := hu
    exact (Ensures.display _ _).andThen fun _ _ => ih ⟨background ++ [pid], rfl⟩

theorem waitFor_stays (pid : Pid) : Stays (waitFor pid) :=
  Stays.loopRules.waitFor trivial fun _ => trivial

theorem runProgram_recruits (command : SimpleCommand) :
    Ensures (runProgram shell command)
      (Ending.Returned fun result => shell.Recruits result.2) := by
  refine (Ensures.fork _).andThen fun result _ => ?_
  rcases result with errno | pid
  · exact (Ensures.call _).andThen fun _ _ => .pure (.refl shell)
  · simp only
    split
    · exact (track_recruits shell (.refl shell) [pid]).andThen fun _ h => .pure h
    · exact (waitFor_stays pid).andThen fun _ _ => .pure (.refl shell)

theorem conclude_recruits (pipeline : Pipeline) (pids : List Pid) (failed : Bool) :
    Ensures (conclude shell pipeline pids failed)
      (Ending.Returned fun result => shell.Recruits result.2) := by
  unfold conclude
  split
  · exact (track_recruits shell (.refl shell) pids).andThen fun _ h => .pure h
  · exact (Stays.loopRules.waitForAll waitFor_stays 0 pids).andThen fun _ _ => .pure (.refl shell)

theorem closePipes_stays (pipes : List Pipe) : Stays (Child.closePipes pipes) :=
  Stays.loopRules.closePipes (fun _ => trivial) pipes

theorem runPipeline_recruits (pipeline : Pipeline) :
    Ensures (runPipeline shell pipeline)
      (Ending.Returned fun result => shell.Recruits result.2) := by
  by_cases hne : pipeline.stages = []
  · simp only [runPipeline, hne, List.isEmpty_nil, if_true]
    exact .pure (.refl shell)
  have hpipes : Stays (makePipes (pipeline.length - 1)) := Stays.loopRules.makePipes trivial _
  have hstages (pipes : List Pipe) : Stays (spawnStages pipes none pipes pipeline.stages) :=
    .of_returns fun host bound state =>
      (spawnStages_returns host bound pipes none pipes _ state).mono fun _ _ _ _ => trivial
  rw [runPipeline_eq hne]
  refine hpipes.andThen fun made _ => ?_
  obtain ⟨pipes, _ | errno⟩ := made
  · rw [runStages_eq]
    exact (hstages pipes).andThen fun made _ => (closePipes_stays pipes).andThen fun _ _ =>
      conclude_recruits shell pipeline made.1 made.2
  · exact (Ensures.call _).andThen fun _ _ => (closePipes_stays pipes).andThen fun _ _ =>
      .pure (.refl shell)

theorem runPipeline_unmoved (pipeline : Pipeline) :
    Ensures (runPipeline shell pipeline) (Ending.Returned fun result => shell.Unmoved result.2) :=
  (runPipeline_recruits shell pipeline).mono fun _ h => h.mono fun _ => Shell.Recruits.unmoved

/-- A failure of `cd`, or of a program or a child, is no verdict. -/
theorem runSimple_met (command : SimpleCommand) :
    Ensures (runSimple shell command) (command.verdict.Met shell) := by
  rcases hargv : command.argv with _ | ⟨name, rest⟩
  · have hname : command.name? = none := by simp [SimpleCommand.name?, hargv]
    have hv : command.verdict = .goOn := by
      simp [SimpleCommand.verdict, SimpleCommand.builtin?, hname]
    rw [hv]
    simp only [runSimple, hname]
    exact .pure (.goOn (.refl shell))
  · have hne : command.argv ≠ [] := by simp [hargv]
    rcases hb : command.builtin? with _ | builtin
    · have hv : command.verdict = .goOn := by simp [SimpleCommand.verdict, hb]
      rw [hv, runSimple_program shell hne hb]
      exact (Ensures.log _).andThen fun _ _ =>
        (runProgram_recruits shell command).mono fun ending h =>
          .of_unmoved ending (h.mono fun _ => Shell.Recruits.unmoved)
    · rw [runSimple_builtin shell hb]
      refine (Ensures.log _).andThen fun _ _ => ?_
      rcases builtin with _ | _ | _ <;> simp only [SimpleCommand.verdict, hb]
      · refine (Ensures.call _).andThen fun reply _ => ?_
        rcases reply with errno | _
        · exact (Ensures.call _).andThen fun _ _ => .pure (.goOn (.refl shell))
        · exact .pure (.goOn (.refl shell))
      · exact (Ensures.log _).andThen fun _ _ => .exit .leave
      · exact .pure (.stop rfl rfl)

end

mutual

/-- A command does what its verdict says, whatever the system answers. -/
theorem run_met {shell : Shell} (hr : shell.running) : (command : Command) →
    Ensures (run shell command) (command.verdict.Met shell)
  | .empty _ => .pure (.goOn (.refl shell))
  | .invalid _ => (Ensures.call _).andThen fun _ _ => .pure (.goOn (.refl shell))
  | .simple command => runSimple_met shell command
  | .pipeline pipeline => (runPipeline_unmoved shell pipeline).mono Verdict.Met.of_unmoved
  | .list entries _ => runEntries_met hr 0 entries

theorem runEntries_met {shell : Shell} (hr : shell.running) (last : Status) :
    (entries : List Command) →
      Ensures (runEntries shell last entries) ((Command.verdicts entries).Met shell)
  | [] => .pure (.goOn (.refl shell))
  | entry :: rest => by
    rw [runEntries]
    refine (run_met hr entry).bind (fun result h => ?_) fun status h => ?_
    · obtain ⟨status, after⟩ := result
      by_cases hv : entry.verdict = .goOn
      · rw [hv] at h
        rw [Command.verdicts_cons_goOn hv]
        have hu := h.unmoved
        have hgo : after.running := hu.running.trans hr
        simp only [hgo, if_true]
        exact (runEntries_met hgo status rest).mono fun _ hm => hm.of_unmoved_left hu
      · rw [Command.verdicts_cons_stop hv]
        have hstop : after.running = false := h.stopped hv
        simp only [hstop, Bool.false_eq_true, if_false]
        exact .pure h
    · have hv : entry.verdict ≠ .goOn := fun hv => by rw [hv] at h; cases h
      rwa [Command.verdicts_cons_stop hv]

end

/-! ## What is never looked at -/

mutual

/-- Behind a command that does not let the shell go on, only what a stopped shell would do
counts. -/
theorem run_bind_stopped (shell : Shell) {next : Status × Shell → Action (Status × Shell)}
    (hn : ∀ result, result.2.running = false → next result = pure result) :
    (command : Command) → command.verdict ≠ .goOn → run shell command >>= next = run shell command
  | .empty _, hv | .invalid _, hv | .pipeline _, hv => absurd rfl hv
  | .simple command, hv => by
    have hv : command.verdict ≠ .goOn := hv
    rw [run]
    rcases hb : command.builtin? with _ | builtin
    · exact absurd (by simp [SimpleCommand.verdict, hb]) hv
    rw [runSimple_builtin shell hb]
    rcases builtin with _ | _ | _
    · exact absurd (by simp [SimpleCommand.verdict, hb]) hv
    · rfl
    · rw [Behavior.bind_assoc]
      exact congrArg (Action.log _ >>= ·) (funext fun _ => hn _ rfl)
  | .list entries _, hv => runEntries_bind_stopped shell 0 hn entries hv

theorem runEntries_bind_stopped (shell : Shell) (last : Status)
    {next : Status × Shell → Action (Status × Shell)}
    (hn : ∀ result, result.2.running = false → next result = pure result) :
    (entries : List Command) → Command.verdicts entries ≠ .goOn →
      runEntries shell last entries >>= next = runEntries shell last entries
  | [], hv => absurd rfl hv
  | entry :: rest, hv => by
    rw [runEntries, Behavior.bind_assoc]
    by_cases hentry : entry.verdict = .goOn
    · rw [Command.verdicts_cons_goOn hentry] at hv
      refine congrArg (run shell entry >>= ·) (funext fun result => ?_)
      obtain ⟨status, after⟩ := result
      by_cases hgo : after.running
      · simp only [hgo, if_true]
        exact runEntries_bind_stopped after status hn rest hv
      · have hstop : after.running = false := by simpa using hgo
        simp only [hstop, Bool.false_eq_true, if_false]
        exact hn _ hstop
    · -- whatever is done with the rest, a stopped shell does not do it
      rw [run_bind_stopped shell (fun result hstop => ?_) entry hentry,
        run_bind_stopped shell (fun result hstop => ?_) entry hentry]
      · simp [hstop]
      · simp [hstop, hn _ hstop]

end

theorem runEntries_singleton (shell : Shell) (last : Status) (entry : Command) :
    runEntries shell last [entry] = run shell entry := by
  have hnext : (fun result : Status × Shell => if result.2.running then
      runEntries result.2 result.1 [] else (pure result : Action _)) = Behavior.done := by
    funext result
    split <;> rfl
  calc runEntries shell last [entry]
      = run shell entry >>= Behavior.done := by rw [← hnext]; rfl
    _ = run shell entry := Behavior.bind_done _

/-- What stands behind an entry that does not let the shell go on is never looked at. -/
theorem runEntries_heeded (shell : Shell) (last : Status) (entries : List Command) :
    runEntries shell last (Command.heeded entries) = runEntries shell last entries := by
  induction entries generalizing shell last with
  | nil => rfl
  | cons entry rest ih =>
    by_cases hv : entry.verdict = .goOn
    · rw [Command.heeded_cons_goOn hv, runEntries, runEntries]
      refine congrArg (run shell entry >>= ·) (funext fun result => ?_)
      simp only [ih]
    · rw [Command.heeded_cons_stop hv, runEntries_singleton, runEntries,
        run_bind_stopped shell (fun result hstop => by simp [hstop]) entry hv]

end Job

end TinyShell
