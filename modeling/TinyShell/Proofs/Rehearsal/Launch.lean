import TinyShell.Proofs.Command.WellFormed
import TinyShell.Proofs.Rehearsal.Abreast

/-!
# Children of a rehearsal

`Recorder.launch` says what a child leaves behind in a rehearsal, without running it: an entry for
its start, one for its program if it came to it (`Recorder.execution?`), and its status
(`Recorder.outcome`). `Child.ofCommand_launched` and `Child.ofStage_launched`: this is what comes of
starting the child of a command or of a stage.

Files, pipes, output and messages do not count here, so recorders are compared by their `gist`.
-/

namespace TinyShell

open TinyShell.Action (ComesTo)

/-- An event in the life of a child. -/
def Event.isLaunch : Event → Bool
  | .forked _ | .executed .. => true
  | _ => false

/-- The files of the redirections that are set. -/
def Slots.paths (slots : Slots) : List String :=
  (slots.toList.filter Redirection.isSet).filterMap Redirection.path

namespace Recorder

/-- What is known of children and their programs, and what decides about further ones. -/
def gist (recorder : Recorder) : Recorder :=
  { recorder with
    input := []
    record := { events := recorder.record.events.filter Event.isLaunch }
    nextDescriptor := 0 }

/-- What can be told from the gist alone is the same for all recorders with that gist. -/
theorem congr_gist {α : Type} (f : Recorder → α) (hf : ∀ recorder, f (gist recorder) = f recorder)
    {recorder recorder' : Recorder} (h : recorder.gist = recorder'.gist) :
    f recorder = f recorder' := by
  rw [← hf recorder, h, hf]

/-- Whether all files of a command can be opened. -/
def opens (recorder : Recorder) (command : SimpleCommand) : Bool :=
  command.slots.paths.all fun path => path ∉ recorder.badPaths

/-- The program that the child of a command becomes. -/
def execution? (recorder : Recorder) (command : SimpleCommand) :
    Option (String × List String) :=
  command.name?.bind fun name =>
    if recorder.opens command ∧ name ∉ recorder.missing then some (name, command.argv) else none

/-- The status that the child of a command leaves behind. -/
def outcome (recorder : Recorder) (command : SimpleCommand) : Status :=
  if recorder.opens command then
    match command.name? with
    | none => 0
    | some name => if name ∈ recorder.missing then Child.failure else recorder.execStatus
  else
    Child.failure

/-- The recorder once the program of a command was executed, if it comes to that. -/
def perform (recorder : Recorder) (command : SimpleCommand) : Recorder :=
  let executed := (recorder.execution? command).toList.map fun (program, argv) =>
    Event.executed program argv
  { recorder with
    record := { recorder.record with events := recorder.record.events ++ executed } }

/-- The recorder once there was one more child, that of this command. -/
def launch (recorder : Recorder) (command : SimpleCommand) : Recorder :=
  let pid := recorder.lastPid + 1
  (({ recorder.addEvent (.forked pid) with lastPid := pid }).perform command).finish pid
    (recorder.outcome command)

variable {recorder recorder' : Recorder}

theorem perform_none {command : SimpleCommand} (h : recorder.execution? command = none) :
    recorder.perform command = recorder := by
  simp [perform, h]

theorem answer_gist {request : Request} (h : request.isOffhand) (recorder : Recorder) :
    (answer request recorder).2.gist = recorder.gist := by
  obtain ⟨_, _, _, badPaths, _, _, _, _, _, replaced⟩ := recorder
  cases request with
  | read | wait | tryWait => cases h
  | pipe | processId => simp [answer, gist, addEvent, Record.addEvent, Event.isLaunch]
  | duplicate | close =>
    cases replaced <;> simp [answer, gist, ifAwake, Record.addEvent, Event.isLaunch]
  | openFile path | changeDirectory path =>
    by_cases hp : path ∈ badPaths <;>
      simp [answer, gist, addEvent, Record.addEvent, Event.isLaunch, hp]
  | write fd bytes =>
    by_cases hfd : fd = .output <;> cases replaced <;>
      simp [answer, gist, Record.addOutput, hfd]
  | report => cases replaced <;> simp [answer, gist, Record.addReport]

theorem put_gist (recorder : Recorder) (bytes : Text.Bytes) :
    (recorder.put bytes).gist = recorder.gist := by
  unfold put
  split <;> rfl

theorem perform_gist (recorder : Recorder) (command : SimpleCommand) :
    (recorder.perform command).gist = recorder.gist.perform command := by
  have hsame : recorder.gist.execution? command = recorder.execution? command := rfl
  rw [perform, perform, hsame]
  rcases recorder.execution? command with _ | ⟨program, argv⟩ <;> simp [gist, Event.isLaunch]

theorem finish_gist (recorder : Recorder) (pid : Pid) (status : Status) :
    (recorder.finish pid status).gist = recorder.gist.finish pid status := rfl

theorem launch_gist (recorder : Recorder) (command : SimpleCommand) :
    (recorder.launch command).gist = recorder.gist.launch command := by
  have hfork (event : Event) (he : event.isLaunch) (pid : Pid) :
      ({ recorder.addEvent event with lastPid := pid } : Recorder).gist =
        { recorder.gist.addEvent event with lastPid := pid } := by
    simp [gist, addEvent, Record.addEvent, he]
  simp only [launch, finish_gist, perform_gist, hfork (.forked _) rfl]
  rfl

theorem launch_congr (h : recorder.gist = recorder'.gist) (command : SimpleCommand) :
    (recorder.launch command).gist = (recorder'.launch command).gist := by
  rw [launch_gist, launch_gist, h]

end Recorder

/-! ## Rehearsed actions -/

namespace Action

variable {α β : Type} {recorder between after after' : Recorder}

/-- The action ends so, and the recorder has the gist of `after` then. -/
def Rehearsed (action : Action α) (recorder : Recorder) (ending : Ending α) (after : Recorder) :
    Prop :=
  ∃ actual, ComesTo Recorder.host action recorder ending actual ∧ actual.gist = after.gist

namespace Rehearsed

theorem pure (value : α) (recorder : Recorder) :
    Rehearsed (pure value) recorder (.returned value) recorder := ⟨recorder, .pure _ _, rfl⟩

theorem congr {action : Action α} {ending : Ending α} (h : Rehearsed action recorder ending after)
    (hg : after.gist = after'.gist) : Rehearsed action recorder ending after' := by
  obtain ⟨actual, hc, ha⟩ := h
  exact ⟨actual, hc, ha.trans hg⟩

theorem bind {action : Action α} {next : α → Action β} {value : α} {ending : Ending β}
    (h : Rehearsed action recorder (.returned value) between)
    (hn : ∀ actual, actual.gist = between.gist → Rehearsed (next value) actual ending after) :
    Rehearsed (action >>= next) recorder ending after := by
  obtain ⟨actual, hc, ha⟩ := h
  obtain ⟨last, hl, hg⟩ := hn actual ha
  exact ⟨last, hc.bind hl, hg⟩

/-- What is offhand is about no child. -/
theorem call {request : Request} (ho : request.isOffhand) {reply : request.Reply}
    (hr : (Recorder.answer request recorder).1 = reply) :
    Rehearsed (call request) recorder (.returned reply) recorder :=
  ⟨_, .call (Prod.ext hr rfl), Recorder.answer_gist ho recorder⟩

theorem report (level : Level) (message : String) (recorder : Recorder) :
    Rehearsed (report level message) recorder (.returned ()) recorder := call rfl rfl

theorem log (text : String) (recorder : Recorder) :
    Rehearsed (log text) recorder (.returned ()) recorder := ⟨_, .log text recorder, rfl⟩

theorem display (label text : String) (recorder : Recorder) :
    Rehearsed (display label text) recorder (.returned ()) recorder :=
  ⟨_, display_comesTo .., Recorder.put_gist _ _⟩

end Rehearsed

end Action

open TinyShell.Action (Rehearsed)

/-! ## In the child -/

namespace Child

variable {recorder : Recorder}

theorem redirect_rehearsed (fd target : Descriptor) (recorder : Recorder) :
    Rehearsed (redirect fd target) recorder (.returned (.ok ())) recorder := by
  unfold redirect
  split
  · exact .pure _ _
  · exact .bind (.call rfl rfl) fun actual hg => (Rehearsed.pure _ _).congr hg

theorem wire_rehearsed (fd : Option Descriptor) (target : Descriptor) (recorder : Recorder) :
    Rehearsed (wire fd target) recorder (.returned (.ok ())) recorder := by
  rcases fd with _ | fd
  · exact .pure _ _
  · exact redirect_rehearsed ..

theorem closePipes_rehearsed (pipes : List Pipe) (recorder : Recorder) :
    Rehearsed (closePipes pipes) recorder (.returned ()) recorder := by
  induction pipes generalizing recorder with
  | nil => exact .pure _ _
  | cons pipe rest ih =>
    refine .bind (.call rfl rfl) fun _ h₁ => .bind (.call rfl rfl) fun actual h₂ => ?_
    exact (ih actual).congr (h₂.trans h₁)

/-- Only a path that is not found keeps a file from being opened. -/
theorem redirectToFile_rehearsed (source : Descriptor) (path : String) (kind : RedirKind)
    (recorder : Recorder) : Rehearsed (redirectToFile source path kind) recorder
      (.returned (if path ∈ recorder.badPaths then .error failure else .ok ())) recorder := by
  by_cases hp : path ∈ recorder.badPaths
  · have hreply : (Recorder.answer (.openFile path (openFlags kind)) recorder).1 =
        .error .enoent := by simp [Recorder.answer, hp]
    rw [if_pos hp]
    refine .bind (.call rfl hreply) fun _ h₁ => .bind (.report ..) fun _ h₂ => ?_
    exact (Rehearsed.pure _ _).congr (h₂.trans h₁)
  · have hreply : (Recorder.answer (.openFile path (openFlags kind)) recorder).1 =
        .ok recorder.nextDescriptor := by simp [Recorder.answer, hp]
    rw [if_neg hp]
    refine .bind (.call rfl hreply) fun actual h₁ => ?_
    simp only
    split
    · exact (Rehearsed.pure _ _).congr h₁
    · refine .bind (redirect_rehearsed _ source actual) fun _ h₂ => ?_
      refine .bind (.call rfl rfl) fun _ h₃ => ?_
      exact (Rehearsed.pure _ _).congr (h₃.trans (h₂.trans h₁))

/-- Redirections to files are all made, or one of the files cannot be opened. -/
theorem applyAll_rehearsed {redirections : List Redirection}
    (hf : ∀ redirection ∈ redirections, redirection.target = none ∧ redirection.path.isSome)
    (recorder : Recorder) : Rehearsed (applyAll redirections) recorder
      (.returned (if (redirections.filterMap Redirection.path).all (· ∉ recorder.badPaths)
        then .ok () else .error failure)) recorder := by
  induction redirections generalizing recorder with
  | nil => exact .pure _ _
  | cons redirection rest ih =>
    obtain ⟨⟨htarget, hpath⟩, hrest⟩ := List.forall_mem_cons.1 hf
    obtain ⟨path, hpath⟩ := Option.isSome_iff_exists.1 hpath
    have hone : applyOne redirection =
        redirectToFile redirection.source path redirection.kind := by
      simp only [applyOne, htarget, hpath]
    have hfirst := redirectToFile_rehearsed redirection.source path redirection.kind recorder
    rw [applyAll, hone, List.filterMap_cons_some hpath, List.all_cons]
    by_cases hp : path ∈ recorder.badPaths
    · rw [if_pos hp] at hfirst
      refine .bind hfirst fun _ hg => ?_
      simp only [hp, not_true_eq_false, decide_false, Bool.false_and, Bool.false_eq_true, if_false]
      exact (Rehearsed.pure _ _).congr hg
    · rw [if_neg hp] at hfirst
      refine .bind hfirst fun actual hg => ?_
      have hbad : actual.badPaths = recorder.badPaths :=
        Recorder.congr_gist Recorder.badPaths (fun _ => rfl) hg
      simp only [hp, not_false_eq_true, decide_true, Bool.true_and]
      rw [← hbad]
      exact (ih hrest actual).congr hg

theorem applySlots_rehearsed {command : SimpleCommand} (hs : command.slots.Shaped)
    (recorder : Recorder) : Rehearsed (applySlots command.slots) recorder
      (.returned (if recorder.opens command then .ok () else .error failure)) recorder := by
  refine applyAll_rehearsed (fun redirection hr => ?_) recorder
  obtain ⟨hr, hset⟩ := List.mem_filter.1 hr
  have hkind : redirection.kind ≠ .unset := by simpa [Redirection.isSet] using hset
  simp only [Slots.toList, List.mem_cons, List.not_mem_nil, or_false] at hr
  rcases hr with rfl | rfl | rfl
  · exact ⟨hs.input.target, hs.input.path.2 hkind⟩
  · exact ⟨hs.output.target, hs.output.path.2 hkind⟩
  · exact ⟨hs.error.target, hs.error.path.2 hkind⟩

/-- The action is all that the child of this command does, from any state in which it can be
born. -/
def Plays (action : Action Status) (command : SimpleCommand) (born : Recorder) : Prop :=
  ∃ ending gone, ComesTo Recorder.host action born ending gone ∧
    ∀ pid, (gone.finish pid ending.status).gist =
      ((born.perform command).finish pid (born.outcome command)).gist

/-- What a child does before it plays does not count. -/
theorem Plays.after {before : Action α} {next : α → Action Status} {value : α}
    {command : SimpleCommand} {born : Recorder}
    (h : Rehearsed before born (.returned value) born)
    (hn : ∀ actual, actual.gist = born.gist → Plays (next value) command actual) :
    Plays (before >>= next) command born := by
  obtain ⟨actual, hc, hg⟩ := h
  obtain ⟨ending, gone, hl, hgone⟩ := hn actual hg
  refine ⟨ending, gone, hc.bind hl, fun pid => ?_⟩
  have houtcome : actual.outcome command = born.outcome command :=
    Recorder.congr_gist (Recorder.outcome · command) (fun _ => rfl) hg
  rw [hgone pid, Recorder.finish_gist, Recorder.finish_gist, Recorder.perform_gist,
    Recorder.perform_gist, hg, houtcome]

/-- A child that ends without a program. -/
theorem plays_return {command : SimpleCommand} {born : Recorder} {status : Status}
    (hx : born.execution? command = none) (ho : born.outcome command = status) :
    Plays (pure status) command born := by
  refine ⟨_, born, .pure _ _, fun pid => ?_⟩
  rw [Recorder.perform_none hx, ho]
  rfl

/-- A child that can open its files becomes its program, if that is found. -/
theorem become_plays {command : SimpleCommand} (hne : command.argv ≠ []) {born : Recorder}
    (hawake : born.replaced = false) (hopen : born.opens command) :
    Plays (become command) command born := by
  obtain ⟨name, rest, hargv⟩ := List.exists_cons_of_ne_nil hne
  have hname : command.name? = some name := by simp [SimpleCommand.name?, hargv]
  by_cases hm : name ∈ born.missing
  · have hexec : Recorder.host.exec name command.argv born = (.error .enoent, born) := if_pos hm
    have hx : born.execution? command = none := by simp [Recorder.execution?, hname, hm]
    have ho : born.outcome command = failure := by simp [Recorder.outcome, hopen, hname, hm]
    have hfail : Plays (Action.report .user (execMessage name .enoent) >>= fun _ => pure failure)
        command born := by
      refine .after (.report ..) fun actual hg => plays_return ?_ ?_
      · rw [← hx, Recorder.congr_gist (Recorder.execution? · command) (fun _ => rfl) hg]
      · rw [← ho, Recorder.congr_gist (Recorder.outcome · command) (fun _ => rfl) hg]
    obtain ⟨ending, gone, hc, hg⟩ := hfail
    refine ⟨ending, gone, ?_, hg⟩
    rw [become, hname]
    exact .exec_error hexec hc
  · let gone : Recorder :=
      { born.addEvent (.executed name command.argv) with replaced := true }
    have hexec : Recorder.host.exec name command.argv born = (.ok born.execStatus, gone) :=
      if_neg hm
    have hx : born.execution? command = some (name, command.argv) := by
      simp [Recorder.execution?, hname, hm, hopen]
    have ho : born.outcome command = born.execStatus := by
      simp [Recorder.outcome, hopen, hname, hm]
    refine ⟨.exited born.execStatus, gone, ?_, fun pid => ?_⟩
    · rw [become, hname]
      exact .exec_ok hexec
    · simp [Recorder.perform, hx, ho, Recorder.finish, Recorder.addEvent, Record.addEvent, hawake,
        gone]

variable {command : SimpleCommand} {born : Recorder}

/-- The redirections of a child, and then its program. -/
theorem slots_plays {next : Action Status} (hs : command.slots.Shaped)
    (hn : ∀ actual, actual.gist = born.gist → actual.opens command → Plays next command actual) :
    Plays (applySlots command.slots >>= fun result => match result with
      | .error status => pure status
      | .ok () => next) command born := by
  have hslots := applySlots_rehearsed hs born
  by_cases hopen : born.opens command
  · rw [if_pos hopen] at hslots
    exact .after hslots fun actual hg =>
      hn actual hg ((Recorder.congr_gist (Recorder.opens · command) (fun _ => rfl) hg).trans hopen)
  · rw [if_neg hopen] at hslots
    refine .after hslots fun actual hg => ?_
    have hclosed : ¬actual.opens command := by
      rwa [Recorder.congr_gist (Recorder.opens · command) (fun _ => rfl) hg]
    refine plays_return ?_ (if_neg hclosed)
    simp [Recorder.execution?, hclosed]

theorem ofCommand_plays (hne : command.argv ≠ []) (hs : command.slots.Shaped)
    (hawake : born.replaced = false) : Plays (ofCommand command) command born :=
  slots_plays hs fun _ hg hopen =>
    become_plays hne ((Recorder.congr_gist Recorder.replaced (fun _ => rfl) hg).trans hawake) hopen

theorem ofStage_plays (pipes : List Pipe) (before after : Option Pipe)
    (hs : command.slots.Shaped) (hawake : born.replaced = false) :
    Plays (ofStage pipes before after command) command born := by
  refine .after (wire_rehearsed ..) fun _ h₁ => .after (wire_rehearsed ..) fun _ h₂ => ?_
  refine .after (closePipes_rehearsed pipes _) fun _ h₃ => slots_plays hs fun actual h₄ hopen => ?_
  have hawake : actual.replaced = false := by
    rwa [Recorder.congr_gist Recorder.replaced (fun _ => rfl) (h₄.trans (h₃.trans (h₂.trans h₁)))]
  by_cases hne : command.argv = []
  · have hname : command.name? = none := by simp [SimpleCommand.name?, hne]
    have hempty : command.isEmpty := by simp [SimpleCommand.isEmpty, hne]
    rw [if_pos hempty]
    refine plays_return ?_ ?_
    · simp [Recorder.execution?, hname]
    · simp [Recorder.outcome, hopen, hname]
  · have hempty : ¬command.isEmpty := by simpa [SimpleCommand.isEmpty] using hne
    rw [if_neg hempty]
    exact become_plays hne hawake hopen

/-! ## Seen from the parent -/

/-- A child that plays a command is launched. -/
theorem fork_launched {child : Action Status} (hf : recorder.failFork = false)
    (hp : ∀ born : Recorder, born.replaced = recorder.replaced → Plays child command born) :
    Rehearsed (Action.fork child) recorder (.returned (.ok (recorder.lastPid + 1)))
      (recorder.launch command) := by
  let born : Recorder :=
    { recorder.addEvent (.forked (recorder.lastPid + 1)) with lastPid := recorder.lastPid + 1 }
  have hfork : Recorder.host.fork recorder = (.ok (recorder.lastPid + 1), born) := by
    simp [Recorder.host, Recorder.fork, hf, born]
  obtain ⟨ending, gone, hc, hg⟩ := hp born rfl
  exact ⟨_, .spawn_ok hfork hc (.pure _ _), hg _⟩

theorem ofCommand_launched (hne : command.argv ≠ []) (hs : command.slots.Shaped)
    (hf : recorder.failFork = false) (hawake : recorder.replaced = false) :
    Rehearsed (Action.fork (ofCommand command)) recorder (.returned (.ok (recorder.lastPid + 1)))
      (recorder.launch command) :=
  fork_launched hf fun _ hb => ofCommand_plays hne hs (hb.trans hawake)

theorem ofStage_launched (pipes : List Pipe) (before after : Option Pipe)
    (hs : command.slots.Shaped) (hf : recorder.failFork = false)
    (hawake : recorder.replaced = false) :
    Rehearsed (Action.fork (ofStage pipes before after command)) recorder
      (.returned (.ok (recorder.lastPid + 1))) (recorder.launch command) :=
  fork_launched hf fun _ hb => ofStage_plays pipes before after hs (hb.trans hawake)

end Child

end TinyShell
