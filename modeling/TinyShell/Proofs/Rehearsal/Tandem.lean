import TinyShell.Proofs.Rehearsal.Abreast
import TinyShell.Shell.Session

/-!
# Shells in tandem

`Job.run_tandem`: two shells that agree in all but what their `View` leaves out, on recorders that
are abreast, run the same command alike. Each function of the shell has its own lemma of this kind,
for the parts that it is made of.

A child that is waited for was started a moment before by the same job, so both recorders know it,
whatever they knew of other children.
-/

namespace TinyShell

open TinyShell.Action (Alike ComesTo Tandem)

variable {view : View} {known : Pid → Prop} {recorder recorder' : Recorder}
  {shell shell' : Shell}

/-- The two shells are alike in what decides how they go on, and in their children in the background
if these count. -/
structure Shell.Abreast (background : Bool) (shell shell' : Shell) : Prop where
  running : shell.running = shell'.running
  lastStatus : shell.lastStatus = shell'.lastStatus
  background : background → shell.background = shell'.background

namespace Shell.Abreast

variable {background : Bool} {shell shell' shell'' : Shell}

theorem refl (background : Bool) (shell : Shell) : shell.Abreast background shell :=
  ⟨rfl, rfl, fun _ => rfl⟩

theorem trans (h : shell.Abreast background shell') (h' : shell'.Abreast background shell'') :
    shell.Abreast background shell'' :=
  ⟨h.running.trans h'.running, h.lastStatus.trans h'.lastStatus, fun hb =>
    (h.background hb).trans (h'.background hb)⟩

end Shell.Abreast

/-- The same status, and shells that are alike. -/
def SameOutcome (view : View) (result result' : Status × Shell) : Prop :=
  result.1 = result'.1 ∧ result.2.Abreast view.background result'.2

theorem Builtin.run_tandem (hs : shell.Abreast view.background shell')
    (h : recorder.Abreast view known recorder') (argv : List String) (builtin : Builtin) :
    Tandem view known (SameOutcome view) (builtin.run shell argv) recorder (builtin.run shell' argv)
      recorder' := by
  cases builtin with
  | cd =>
    refine (Action.Offhand.call rfl).before h fun reply after after' h => ?_
    rcases reply with errno | _
    · exact (Action.Offhand.report ..).before h fun _ _ _ h => .pure ⟨⟨rfl, hs⟩, h⟩
    · exact .pure ⟨⟨rfl, hs⟩, h⟩
  | exit =>
    exact (Action.Offhand.log _).before h fun _ _ _ h => .exited (.exit ..) (.exit ..) h
  | quit =>
    refine .pure ⟨⟨rfl, rfl, ?_, hs.background⟩, h⟩
    simp only [hs.lastStatus]

namespace Job

/-- A child that both know is waited for alike. -/
theorem waitFor_tandem {pid : Pid} (hk : known pid) (h : recorder.Abreast view known recorder') :
    Tandem view known Eq (waitFor pid) recorder (waitFor pid) recorder' := by
  obtain ⟨hreply, hafter⟩ := (h.addEvent (.asked (.wait pid))).collect hk
  have hcall : Tandem view known Eq (Action.call (.wait pid)) recorder (Action.call (.wait pid))
      recorder' := .returned (.call rfl) (.call rfl) ⟨hreply.symm, hafter⟩
  refine hcall.bind ?_
  rintro reply _ after after' ⟨rfl, h⟩
  rcases reply with errno | status
  · exact (Action.Offhand.report ..).before h fun _ _ _ h => .pure ⟨rfl, h⟩
  · exact .pure ⟨rfl, h⟩

theorem waitForAll_tandem {pids : List Pid} (hk : ∀ pid ∈ pids, known pid) (last : Status)
    (h : recorder.Abreast view known recorder') :
    Tandem view known Eq (waitForAll last pids) recorder (waitForAll last pids) recorder' := by
  induction pids generalizing last recorder recorder' with
  | nil => exact .pure ⟨rfl, h⟩
  | cons pid rest ih =>
    refine (waitFor_tandem (hk pid List.mem_cons_self) h).bind ?_
    rintro status _ after after' ⟨rfl, h⟩
    exact ih (fun other ho => hk other (List.mem_cons_of_mem _ ho)) status h

theorem track_tandem (hs : shell.Abreast view.background shell') (pids : List Pid)
    (h : recorder.Abreast view known recorder') :
    Tandem view known (Shell.Abreast view.background) (track shell pids) recorder
      (track shell' pids) recorder' := by
  induction pids generalizing shell shell' recorder recorder' with
  | nil => exact .pure ⟨hs, h⟩
  | cons pid rest ih =>
    refine (display_tandem h ..).bind ?_
    rintro _ _ _ _ ⟨-, h⟩
    refine ih ⟨hs.running, hs.lastStatus, fun hv => ?_⟩ h
    simp only [hs.background hv]

theorem runProgram_tandem (hs : shell.Abreast view.background shell')
    (h : recorder.Abreast view known recorder') (command : SimpleCommand) :
    Tandem view known (SameOutcome view) (runProgram shell command) recorder
      (runProgram shell' command) recorder' := by
  refine (Action.fork_alike (Child.ofCommand_offhand command) h).bind ?_
  rintro result _ after after' ⟨rfl, h⟩
  rcases result with errno | pid
  · exact (Action.Offhand.report ..).before (h.mono fun _ => .inl) fun _ _ _ h =>
      .pure ⟨⟨rfl, hs⟩, h⟩
  · -- from here on both know the child
    obtain ⟨known', hk, hpid, h⟩ : ∃ known' : Pid → Prop, (∀ other, known other → known' other) ∧
        known' pid ∧ after.Abreast view known' after' := ⟨_, fun _ => .inl, .inr rfl, h⟩
    refine Tandem.forget ?_ hk
    simp only
    split
    · refine (track_tandem hs [pid] h).bind ?_
      rintro _ _ _ _ ⟨hs, h⟩
      exact .pure ⟨⟨rfl, hs⟩, h⟩
    · refine (waitFor_tandem hpid h).bind ?_
      rintro _ _ _ _ ⟨rfl, h⟩
      exact .pure ⟨⟨rfl, hs⟩, h⟩

theorem runSimple_tandem (hs : shell.Abreast view.background shell')
    (h : recorder.Abreast view known recorder') (command : SimpleCommand) :
    Tandem view known (SameOutcome view) (runSimple shell command) recorder
      (runSimple shell' command) recorder' := by
  unfold runSimple
  rcases command.name? with _ | name
  · exact .pure ⟨⟨rfl, hs⟩, h⟩
  · simp only
    split
    · exact .note (Builtin.run_tandem hs h ..)
    · exact .note (runProgram_tandem hs h command)

/-! ## Pipelines -/

/-- The children of the stages are started alike, and known then. -/
theorem spawnStages_alike (pipes : List Pipe) (before : Option Pipe) (after : List Pipe)
    (stages : List SimpleCommand) (h : recorder.Abreast view known recorder') :
    Alike Recorder.host (Recorder.Abreast view known)
      (fun made made' gone gone' => made = made' ∧
        gone.Abreast view (fun pid => known pid ∨ pid ∈ made.1) gone')
      (spawnStages pipes before after stages) recorder (spawnStages pipes before after stages)
      recorder' := by
  induction stages generalizing before after known recorder recorder' with
  | nil => exact .pure ⟨rfl, h.mono (by simp)⟩
  | cons stage rest ih =>
    refine (Action.fork_alike (Child.ofStage_offhand pipes before after.head? stage) h).bind ?_
    rintro result _ gone gone' ⟨rfl, h⟩
    rcases result with errno | pid
    · refine ((Action.Offhand.report ..).tandem (h.mono fun _ => .inl)).bind ?_
      rintro _ _ _ _ ⟨-, h⟩
      exact .pure ⟨rfl, h.mono (by simp)⟩
    · refine ((ih after.head? after.tail h).mono (fun _ _ h => h.mono fun _ => .inl)
        fun _ _ _ _ h => h).bind ?_
      rintro ⟨pids, failed⟩ _ _ _ ⟨rfl, h⟩
      refine .pure ⟨rfl, h.mono ?_⟩
      rintro other (hk | hm)
      · exact .inl (.inl hk)
      · rcases List.mem_cons.1 hm with rfl | hm
        · exact .inl (.inr rfl)
        · exact .inr hm

theorem runStages_tandem (hs : shell.Abreast view.background shell')
    (h : recorder.Abreast view known recorder') (pipeline : Pipeline) (pipes : List Pipe) :
    Tandem view known (SameOutcome view) (runStages shell pipeline pipes) recorder
      (runStages shell' pipeline pipes) recorder' := by
  refine (spawnStages_alike pipes none pipes pipeline.stages h).bind ?_
  rintro ⟨pids, failed⟩ _ after after' ⟨rfl, h⟩
  obtain ⟨known', hk, hpids, h⟩ : ∃ known' : Pid → Prop, (∀ other, known other → known' other) ∧
      (∀ pid ∈ pids, known' pid) ∧ after.Abreast view known' after' :=
    ⟨_, fun _ => .inl, fun _ => .inr, h⟩
  refine Tandem.forget ?_ hk
  refine (Action.Offhand.rules.closePipes (fun _ => rfl) pipes).before h fun _ _ _ h => ?_
  split
  · refine (track_tandem hs pids h).bind ?_
    rintro _ _ _ _ ⟨hs, h⟩
    exact .pure ⟨⟨rfl, hs⟩, h⟩
  · refine (waitForAll_tandem hpids 0 h).bind ?_
    rintro status _ _ _ ⟨rfl, h⟩
    exact .pure ⟨⟨rfl, hs⟩, h⟩

theorem runPipeline_tandem (hs : shell.Abreast view.background shell')
    (h : recorder.Abreast view known recorder') (pipeline : Pipeline) :
    Tandem view known (SameOutcome view) (runPipeline shell pipeline) recorder
      (runPipeline shell' pipeline) recorder' := by
  unfold runPipeline
  split
  · exact .pure ⟨⟨rfl, hs⟩, h⟩
  refine (Action.Offhand.rules.makePipes rfl _).before h fun (pipes, failure) after after' h => ?_
  rcases failure with _ | errno
  · exact runStages_tandem hs h pipeline pipes
  · refine (Action.Offhand.report ..).before h fun _ _ _ h => ?_
    exact (Action.Offhand.rules.closePipes (fun _ => rfl) pipes).before h fun _ _ _ h =>
      .pure ⟨⟨rfl, hs⟩, h⟩

/-! ## Commands -/

mutual

/-- The same command runs alike. -/
theorem run_tandem {shell shell' : Shell} {recorder recorder' : Recorder}
    (hs : shell.Abreast view.background shell') (h : recorder.Abreast view known recorder') :
    (command : Command) → Tandem view known (SameOutcome view) (run shell command) recorder
      (run shell' command) recorder'
  | .empty _ => .pure ⟨⟨rfl, hs⟩, h⟩
  | .invalid _ => (Action.Offhand.report ..).before h fun _ _ _ h => .pure ⟨⟨rfl, hs⟩, h⟩
  | .simple command => runSimple_tandem hs h command
  | .pipeline stages => runPipeline_tandem hs h stages
  | .list entries _ => runEntries_tandem hs h 0 entries

theorem runEntries_tandem {shell shell' : Shell} {recorder recorder' : Recorder}
    (hs : shell.Abreast view.background shell') (h : recorder.Abreast view known recorder')
    (last : Status) :
    (entries : List Command) → Tandem view known (SameOutcome view) (runEntries shell last entries)
      recorder (runEntries shell' last entries) recorder'
  | [] => .pure ⟨⟨rfl, hs⟩, h⟩
  | entry :: rest => by
    refine (run_tandem hs h entry).bind ?_
    rintro ⟨status, after⟩ ⟨_, after'⟩ _ _ ⟨⟨rfl, hs⟩, h⟩
    have hafter : after.Abreast view.background after' := hs
    simp only [hafter.running]
    split
    · exact runEntries_tandem hafter h status rest
    · exact .pure ⟨⟨rfl, hafter⟩, h⟩

end

end Job

/-! ## Lines -/

namespace Shell

/-- The messages that go with a line that can run, one for each fault. -/
def advice (line : String) : List (Level × String) :=
  if (Command.ofLine line).isInvalid then []
  else (Command.ofLine line).faults.toList.map fun fault => (.user, fault.text)

theorem advise_comesTo (faults : List Fault) (recorder : Recorder) :
    ComesTo Recorder.host (advise faults) recorder (.returned ())
      (recorder.tell (faults.map fun fault => (.user, fault.text))) := by
  induction faults generalizing recorder with
  | nil =>
    rw [List.map_nil, Recorder.tell_nil]
    exact .pure () recorder
  | cons fault rest ih =>
    rw [List.map_cons, Recorder.tell_cons]
    exact .bind (.call rfl) (ih _)

/-- The shell with the command of a line in place. -/
def loaded (shell : Shell) (line : String) : Shell :=
  { shell with tokens := .ofLine line, command := .ofLine line }

theorem loaded_abreast {background : Bool} (shell : Shell) (line : String) :
    shell.Abreast background (shell.loaded line) := ⟨rfl, rfl, fun _ => rfl⟩

theorem parseLine_comesTo (shell : Shell) (line : String) (recorder : Recorder) :
    ComesTo Recorder.host (shell.parseLine line) recorder (.returned (shell.loaded line))
      (recorder.tell (advice line)) := by
  refine .bind (.log ..) (.bind (.log ..) ?_)
  change ComesTo Recorder.host (if (Command.ofLine line).isInvalid then pure (shell.loaded line)
    else advise (Command.ofLine line).faults.toList >>= fun _ => pure (shell.loaded line)) recorder
    (.returned (shell.loaded line)) (recorder.tell (advice line))
  unfold advice
  split
  · rw [Recorder.tell_nil]
    exact .pure _ recorder
  · exact .bind (advise_comesTo _ recorder) (.pure _ _)

/-- A line is parsed and then run, with its status as that of a line. -/
theorem runLine_of_job (shell : Shell) (line : String) (recorder : Recorder)
    {ending : Ending (Status × Shell)} {after : Recorder}
    (h : ComesTo Recorder.host (Job.run (shell.loaded line) (.ofLine line) >>= fun result =>
      pure (lineStatus result.2 (Command.ofLine line).isEmpty result.1, result.2))
      (recorder.tell (advice line)) ending after) :
    ComesTo Recorder.host (shell.runLine line) recorder ending after :=
  .bind (.log ..) (.bind (parseLine_comesTo shell line recorder) h)

end Shell

end TinyShell
