import TinyShell.Proofs.Shell.Desk
import TinyShell.Proofs.Shell.Verdict

/-!
# What a child does before its program

`Job.forks_prepared`: a program only runs once its child has put everything in its place, pipe ends
first and then the redirections. Whatever call is refused, the child makes no further one of them,
gives one message, and fails without a program.

What is to be done is a list of tasks, read off the command and the pipes on its sides
(`Child.tasks`). `Child.Made` says which calls that takes, given the replies, and where it ends if
one of them is an error. Each function of a child comes to the calls of its tasks
(`Run.Prepares`: `redirect_prepares`, `redirectToFile_prepares`, `applyAll_prepares`), and the
children as a whole to one of four ends (`Child.Fate`).
-/

namespace TinyShell

variable {σ : Type}

/-! ## Calls and messages -/

/-- A call that puts something in its place, and its reply. -/
abbrev Placing := (request : Request) × request.Reply

/-- The calls that open files and copy descriptors. -/
def Move.placing? : Move σ → Option Placing
  | .asked _ (.duplicate source target) reply => some ⟨.duplicate source target, reply⟩
  | .asked _ (.openFile path flags) reply => some ⟨.openFile path flags, reply⟩
  | _ => none

def placings (moves : List (Move σ)) : List Placing := moves.filterMap Move.placing?

/-- A message of this level. -/
def Move.message? (level : Level) : Move σ → Option String
  | .asked _ (.report level' message) _ => if level' = level then some message else none
  | _ => none

def messages (level : Level) (moves : List (Move σ)) : List String :=
  moves.filterMap (Move.message? level)

@[simp]
theorem placings_append (first second : List (Move σ)) :
    placings (first ++ second) = placings first ++ placings second := List.filterMap_append

@[simp]
theorem messages_append (level : Level) (first second : List (Move σ)) :
    messages level (first ++ second) = messages level first ++ messages level second :=
  List.filterMap_append

namespace Child

/-! ## Tasks -/

/-- Something to be put in the place of a descriptor. -/
inductive Task where
  | copy (fd target : Descriptor)
  | load (path : String) (flags : OpenFlags) (target : Descriptor)

/-- The calls for tasks in order, and the message about the one that was refused, if any. Then it is
the last of them. A file is opened under some descriptor and goes to its place from there, and what
is in its place already takes no call. -/
inductive Made : List Task → List Placing → Option String → Prop
  | done : Made [] [] none
  | placed {fd : Descriptor} {rest : List Task} {calls : List Placing} {failure : Option String} :
    Made rest calls failure → Made (.copy fd fd :: rest) calls failure
  | copied {fd target : Descriptor} {rest : List Task} {calls : List Placing}
    {failure : Option String} : fd ≠ target → Made rest calls failure →
    Made (.copy fd target :: rest) (⟨.duplicate fd target, .ok ()⟩ :: calls) failure
  | uncopied {fd target : Descriptor} {rest : List Task} (errno : Errno) : fd ≠ target →
    Made (.copy fd target :: rest) [⟨.duplicate fd target, .error errno⟩]
      (some ("dup2 " ++ Text.decimal fd ++ " -> " ++ Text.decimal target ++ ": " ++ errno.text))
  | opened {path : String} {flags : OpenFlags} {fd target : Descriptor} {rest : List Task}
    {calls : List Placing} {failure : Option String} :
    Made (.copy fd target :: rest) calls failure →
    Made (.load path flags target :: rest) (⟨.openFile path flags, .ok fd⟩ :: calls) failure
  | unopened {path : String} {flags : OpenFlags} {target : Descriptor} {rest : List Task}
    (errno : Errno) :
    Made (.load path flags target :: rest) [⟨.openFile path flags, .error errno⟩]
      (some ("cannot open " ++ path ++ ": " ++ errno.describe))

namespace Made

variable {tasks more : List Task} {calls calls' : List Placing}

theorem append (h : Made tasks calls none) {failure : Option String}
    (h' : Made more calls' failure) : Made (tasks ++ more) (calls ++ calls') failure := by
  generalize hn : (none : Option String) = outcome at h
  induction h with
  | done => exact h'
  | placed _ ih => exact .placed (ih hn)
  | copied hne _ ih => exact .copied hne (ih hn)
  | opened _ ih => exact .opened (ih hn)
  | uncopied | unopened => cases hn

/-- What comes after a refusal is not begun. -/
theorem cut {message : String} (h : Made tasks calls (some message)) :
    Made (tasks ++ more) calls (some message) := by
  generalize hn : some message = outcome at h
  induction h with
  | done => cases hn
  | placed _ ih => exact .placed (ih hn)
  | copied hne _ ih => exact .copied hne (ih hn)
  | opened _ ih => exact .opened (ih hn)
  | uncopied errno hne => exact .uncopied errno hne
  | unopened errno => exact .unopened errno

end Made

/-- Moves that do tasks up to a refusal, with a message about it, and come to no program. -/
structure Prepared (tasks : List Task) (failure : Option String) (moves : List (Move σ)) :
    Prop where
  made : Made tasks (placings moves) failure
  programs : (Ledger.of moves).executions = []
  system : messages .system moves = failure.toList
  user : messages .user moves = []

namespace Prepared

variable {tasks more : List Task} {moves moves' : List (Move σ)}

theorem append (h : Prepared tasks none moves) {failure : Option String}
    (h' : Prepared more failure moves') : Prepared (tasks ++ more) failure (moves ++ moves') where
  made := placings_append moves moves' ▸ h.made.append h'.made
  programs := by simp [h.programs, h'.programs]
  system := by simp [h.system, h'.system]
  user := by simp [h.user, h'.user]

theorem cut {message : String} (h : Prepared tasks (some message) moves) :
    Prepared (tasks ++ more) (some message) moves :=
  { h with made := h.made.cut }

/-- A file that was opened is still to go to its place. -/
theorem opened {path : String} {flags : OpenFlags} {fd target : Descriptor} {rest : List Task}
    {failure : Option String} {before : σ}
    (h : Prepared (.copy fd target :: rest) failure moves) :
    Prepared (.load path flags target :: rest) failure
      (.asked before (.openFile path flags) (.ok fd) :: moves) :=
  ⟨.opened h.made, h.programs, h.system, h.user⟩

/-- Moves that are not about tasks. -/
theorem aside (hp : placings moves = []) (he : (Ledger.of moves).executions = [])
    (hs : messages .system moves = []) (hu : messages .user moves = []) :
    Prepared [] none moves :=
  ⟨hp ▸ .done, he, hs, hu⟩

end Prepared

/-- Leave to go on, or the status to fail with. -/
def permit (failure : Option String) : Except Status Unit :=
  if failure.isSome then .error Child.failure else .ok ()

/-- How a child ends: it was refused something, it has no program, its program runs, or its program
could not be run. -/
inductive Fate (tasks : List Task) (argv : List String) : Run σ Status → Prop
  | refused {moves : List (Move σ)} {message : String} {after : σ} :
    Prepared tasks (some message) moves → Fate tasks argv ⟨moves, some (.returned 1, after)⟩
  | nameless {moves : List (Move σ)} {after : σ} : argv = [] → Prepared tasks none moves →
    Fate tasks argv ⟨moves, some (.returned 0, after)⟩
  | started {moves : List (Move σ)} {before after : σ} {name : String} {status : Status} :
    argv.head? = some name → Prepared tasks none moves →
    Fate tasks argv
      ⟨moves ++ [.executed before name argv (.ok status)], some (.exited status, after)⟩
  | unstarted {moves : List (Move σ)} {before told after : σ} {name : String} {errno : Errno} :
    argv.head? = some name → Prepared tasks none moves →
    Fate tasks argv ⟨moves ++ [.executed before name argv (.error errno),
      .asked told (.report .user (execMessage name errno)) ()], some (.returned 1, after)⟩

/-- The rest of a child that has been prepared for its first tasks. -/
theorem Fate.after {tasks more : List Task} {argv : List String} {moves : List (Move σ)}
    {run : Run σ Status} (hp : Prepared tasks none moves) (h : Fate more argv run) :
    Fate (tasks ++ more) argv (run.after moves) := by
  cases h with
  | refused h => exact .refused (hp.append h)
  | nameless hn h => exact .nameless hn (hp.append h)
  | started hn h =>
    rw [Run.after, ← List.append_assoc]
    exact .started hn (hp.append h)
  | unstarted hn h =>
    rw [Run.after, ← List.append_assoc]
    exact .unstarted hn (hp.append h)

end Child

open Child (Task Prepared Fate)

/-- The run does these tasks, or fails with the one that was refused. -/
def Run.Prepares (run : Run σ (Except Status Unit)) (tasks : List Task) : Prop :=
  run.Returns fun moves value _ =>
    ∃ failure, Prepared tasks failure moves ∧ value = Child.permit failure

namespace Run.Prepares

variable {run : Run σ (Except Status Unit)} {tasks more : List Task}

theorem pure (state : σ) : (Run.pure (.ok ()) state).Prepares [] :=
  Returns.pure ⟨none, .aside rfl rfl rfl rfl, rfl⟩

/-- The next tasks, unless one of the first was refused. -/
theorem bind {next : Except Status Unit → σ → Run σ (Except Status Unit)}
    (h : run.Prepares tasks) (hn : ∀ state, (next (.ok ()) state).Prepares more)
    (hf : ∀ status state, next (.error status) state = .pure (.error status) state) :
    (run.bind next).Prepares (tasks ++ more) := by
  refine Returns.bind h ?_
  rintro moves _ state ⟨_ | message, hp, rfl⟩
  · refine (hn state).mono ?_
    rintro moves' _ _ ⟨failure, hp', rfl⟩
    exact ⟨failure, hp.append hp', rfl⟩
  · have hstop : next (Child.permit (some message)) state =
        .pure (.error Child.failure) state := hf _ state
    rw [hstop]
    exact .pure ⟨some message, by simpa using hp.cut, rfl⟩

/-- What a child does then, unless a task was refused. -/
theorem fate {argv : List String} {next : Except Status Unit → σ → Run σ Status}
    (h : run.Prepares tasks) (hn : ∀ state, Fate more argv (next (.ok ()) state))
    (hf : ∀ status state, next (.error status) state = .pure status state) :
    Fate (tasks ++ more) argv (run.bind next) := by
  obtain ⟨moves, _, state, rfl, _ | message, hp, rfl⟩ := Returns.elim h
  · exact (hn state).after hp
  · have hstop : next (Child.permit (some message)) state = .pure Child.failure state :=
      hf _ state
    rw [bind_of_returned rfl, hstop, Run.after, Run.pure, List.append_nil]
    exact .refused hp.cut

end Run.Prepares

/-! ## The tasks of a child -/

/-- What a redirection asks for. -/
def Redirection.task? (redirection : Redirection) : Option Task :=
  match redirection.target, redirection.path with
  | some fd, _ => some (.copy fd redirection.source)
  | .none, some path => some (.load path (Child.openFlags redirection.kind) redirection.source)
  | .none, .none => .none

/-- What a child between these pipes has to do: the ends of the pipes first, then the redirections
that are set, in order. -/
def Child.tasks (before after : Option Pipe) (slots : Slots) : List Task :=
  (before.map fun pipe => Task.copy pipe.readEnd .input).toList ++
    ((after.map fun pipe => Task.copy pipe.writeEnd .output).toList ++
      (slots.toList.filter Redirection.isSet).filterMap Redirection.task?)

namespace Child

open TinyShell.Action (trace)

variable (host : Host σ) (bound : Nat)

theorem redirect_prepares (fd target : Descriptor) (state : σ) :
    (trace host bound (redirect fd target) state).Prepares [.copy fd target] := by
  unfold redirect
  split
  · rename_i heq
    subst heq
    exact Run.Returns.pure ⟨none, ⟨.placed .done, rfl, rfl, rfl⟩, rfl⟩
  · rename_i hne
    rw [Action.trace_call_bind]
    rcases host.answer (.duplicate fd target) state with ⟨errno | _, state'⟩
    · exact Run.Returns.after ⟨_, _, rfl, some _, ⟨.uncopied errno hne, rfl, rfl, rfl⟩, rfl⟩
    · exact Run.Returns.after (.pure ⟨none, ⟨.copied hne .done, rfl, rfl, rfl⟩, rfl⟩)

theorem redirectToFile_prepares (source : Descriptor) (path : String) (kind : RedirKind)
    (state : σ) : (trace host bound (redirectToFile source path kind) state).Prepares
      [.load path (openFlags kind) source] := by
  rw [redirectToFile, Action.trace_call_bind]
  rcases host.answer (.openFile path (openFlags kind)) state with ⟨errno | fd, state'⟩
  · exact Run.Returns.after ⟨_, _, rfl, some _, ⟨.unopened errno, rfl, rfl, rfl⟩, rfl⟩
  · refine Run.Returns.after ?_
    simp only
    split
    · rename_i heq
      subst heq
      exact .pure ⟨none, ⟨.opened (.placed .done), rfl, rfl, rfl⟩, rfl⟩
    · rw [Action.trace_bind]
      refine Run.Returns.bind (redirect_prepares host bound fd source state') ?_
      rintro moves _ state' ⟨_ | message, hp, rfl⟩
      · -- the number of the opening is closed, whatever comes of it
        exact .after (.pure ⟨none, (hp.append (.aside rfl rfl rfl rfl)).opened, rfl⟩)
      · exact .pure ⟨some message, by simpa using hp.opened, rfl⟩

theorem applyOne_prepares (redirection : Redirection) (state : σ) :
    (trace host bound (applyOne redirection) state).Prepares redirection.task?.toList := by
  obtain ⟨source, _ | fd, _ | path, kind⟩ := redirection
  case none.none => exact Run.Returns.after (.pure ⟨none, .aside rfl rfl rfl rfl, rfl⟩)
  case none.some => exact redirectToFile_prepares host bound source path kind state
  case some.none | some.some => exact redirect_prepares host bound fd source state

theorem applyAll_prepares (redirections : List Redirection) (state : σ) :
    (trace host bound (applyAll redirections) state).Prepares
      (redirections.filterMap Redirection.task?) := by
  induction redirections generalizing state with
  | nil => exact .pure state
  | cons redirection rest ih =>
    have hsplit : (redirection :: rest).filterMap Redirection.task? =
        redirection.task?.toList ++ rest.filterMap Redirection.task? := by
      rcases ht : redirection.task? with _ | task <;> simp [ht]
    rw [hsplit, applyAll, Action.trace_bind]
    exact (applyOne_prepares host bound redirection state).bind ih fun _ _ => rfl

theorem wire_prepares (pipe : Option Pipe) (side : Pipe → Descriptor) (target : Descriptor)
    (state : σ) : (trace host bound (wire (pipe.map side) target) state).Prepares
      (pipe.map fun pipe => Task.copy (side pipe) target).toList := by
  rcases pipe with _ | pipe
  · exact .pure state
  · exact redirect_prepares host bound (side pipe) target state

theorem closePipes_prepared (pipes : List Pipe) (state : σ) :
    (trace host bound (closePipes pipes) state).Returns fun moves _ _ =>
      Prepared [] none moves := by
  induction pipes generalizing state with
  | nil => exact .pure (.aside rfl rfl rfl rfl)
  | cons pipe rest ih =>
    rw [closePipes, Action.trace_call_bind, Action.trace_call_bind, Run.after_after]
    exact .after ((ih _).mono fun moves _ _ h => Prepared.append (.aside rfl rfl rfl rfl) h)

/-! ## Children -/

theorem become_fate {command : SimpleCommand} (hne : command.argv ≠ []) (state : σ) :
    Fate [] command.argv (trace host bound (become command) state) := by
  obtain ⟨name, rest, hargv⟩ := List.exists_cons_of_ne_nil hne
  have hhead : command.argv.head? = some name := by rw [hargv]; rfl
  have hname : command.name? = some name := hhead
  simp only [become, hname, Option.getD_some]
  have hprepared : Prepared [] none ([] : List (Move σ)) := .aside rfl rfl rfl rfl
  rcases he : host.exec name command.argv state with ⟨errno | status, state'⟩
  · rw [Action.trace_exec_error he]
    exact .unstarted hhead hprepared
  · rw [Action.trace_exec_ok he]
    exact .started hhead hprepared

/-- The child of a command that stands alone. -/
theorem ofCommand_fate {command : SimpleCommand} (hne : command.argv ≠ []) (state : σ) :
    Fate (tasks none none command.slots) command.argv
      (trace host bound (ofCommand command) state) := by
  rw [ofCommand, Action.trace_bind, ← List.append_nil (tasks none none command.slots)]
  exact (applyAll_prepares host bound _ state).fate (become_fate host bound hne)
    fun _ _ => rfl

/-- The child of a stage. -/
theorem ofStage_fate (pipes : List Pipe) (before after : Option Pipe) (stage : SimpleCommand)
    (state : σ) : Fate (tasks before after stage.slots) stage.argv
      (trace host bound (ofStage pipes before after stage) state) := by
  rw [ofStage, Action.trace_bind]
  refine (wire_prepares host bound before _ _ state).fate (fun state₁ => ?_) fun _ _ => rfl
  rw [Action.trace_bind]
  refine (wire_prepares host bound after _ _ state₁).fate (fun state₂ => ?_) fun _ _ => rfl
  rw [Action.trace_bind]
  obtain ⟨moves, _, state₃, hclosed, hp⟩ := (closePipes_prepared host bound pipes state₂).elim
  rw [hclosed, Run.bind_of_returned rfl]
  refine Fate.after hp ?_
  rw [Action.trace_bind, ← List.append_nil (List.filterMap _ _)]
  refine (applyAll_prepares host bound _ state₃).fate (fun state₄ => ?_) fun _ _ => rfl
  simp only
  split
  · rename_i hempty
    exact .nameless (by simpa [SimpleCommand.isEmpty] using hempty) (.aside rfl rfl rfl rfl)
  · rename_i hne
    exact become_fate host bound (by simpa [SimpleCommand.isEmpty] using hne) state₄

end Child

/-! ## The shell that starts them -/

/-- What was started is this child, and it came to one of its ends. -/
structure Fork.Ran (fork : Fork σ) (host : Host σ) (bound : Nat) (child : Action Status)
    (tasks : List Task) (argv : List String) : Prop where
  moves : fork.child = (Action.trace host bound child (host.fork fork.before).2).moves
  fate : Fate tasks argv (Action.trace host bound child (host.fork fork.before).2)

/-- What was started is stage `i` of a pipeline, between the pipes on its sides. -/
def Fork.RanStage (fork : Fork σ) (host : Host σ) (bound : Nat) (pipeline : Pipeline)
    (pipes : List Pipe) (i : Nat) : Prop :=
  ∃ stage, pipeline.stages[i]? = some stage ∧
    fork.Ran host bound (Child.ofStage pipes (Job.pipeBefore none pipes i) pipes[i]? stage)
      (Child.tasks (Job.pipeBefore none pipes i) pipes[i]? stage.slots) stage.argv

namespace Job

open TinyShell.Action (trace)

variable (host : Host σ) (bound : Nat)

/-- What is left to do for one program is what is left to do for a pipeline of it alone. -/
theorem conclude_single (shell : Shell) (command : SimpleCommand) (faults : Faults) (pid : Pid) :
    conclude shell ⟨[command], faults⟩ [pid] false = (if command.background then do
      return (0, ← track shell [pid])
    else
      return (← waitFor pid, shell)) := by
  rcases hb : command.background <;>
    simp [conclude, Pipeline.isBackground, hb, waitForAll]

/-- A program that stands alone has one child, and the shell starts no other for it. -/
theorem runProgram_forks (shell : Shell) {command : SimpleCommand} (hne : command.argv ≠ [])
    (state : σ) :
    ∃ fork, (Ledger.of (trace host bound (runProgram shell command) state).moves).forks = [fork] ∧
      ∀ pid, fork.result = .ok pid → fork.Ran host bound (Child.ofCommand command)
        (Child.tasks none none command.slots) command.argv := by
  rw [runProgram, Action.fork, Behavior.spawn_bind]
  rcases hf : host.fork state with ⟨errno | pid, state'⟩
  · rw [Action.trace_spawn_error hf]
    exact ⟨⟨state, .error errno, []⟩, rfl, by simp⟩
  · have hends := (Child.ofCommand_offhand command).loopless.isSome host bound state'
    obtain ⟨⟨ending, child⟩, hc⟩ := Option.isSome_iff_exists.1 hends
    rw [Action.trace_spawn_ok hf hc, Behavior.done_bind]
    refine ⟨⟨state, .ok pid, _⟩, ?_, fun _ _ => ⟨by rw [hf], ?_⟩⟩
    case refine_2 => exact Child.ofCommand_fate host bound hne _
    obtain ⟨waits, hwaits⟩ := conclude_ledger host bound shell ⟨[command], ∅⟩ [pid] false
      (host.join state' child pid ending.status)
    rw [conclude_single] at hwaits
    exact congrArg (fun rest => _ :: Ledger.forks rest) hwaits

variable {host bound} in
/-- The children of a pipeline are its first stages, in order. -/
theorem Orderly.ran {shell : Shell} {pipeline : Pipeline} {run : Run σ (Status × Shell)}
    (h : Orderly host bound shell pipeline run) {i : Nat} {fork : Fork σ} {pid : Pid}
    (hi : (Ledger.of run.moves).forks[i]? = some fork) (hp : fork.result = .ok pid) :
    ∃ pipes : List Pipe, (Ledger.of run.moves).pipes = pipes.map .ok ∧
      pipes.length + 1 = pipeline.length ∧ fork.RanStage host bound pipeline pipes i := by
  by_cases hne : pipeline.stages = []
  · simp [(h.nothing hne).1] at hi
  by_cases hpipes : ∃ errno, .error errno ∈ (Ledger.of run.moves).pipes
  · obtain ⟨errno, he⟩ := hpipes
    obtain ⟨pipes, hl, -⟩ := h.unpiped errno he
    simp [hl] at hi
  · obtain ⟨course, hc⟩ := h.piped hne (not_exists.1 hpipes)
    obtain ⟨piping, spawning, closing, rest, hmoves, h1, h2, h3, h4⟩ := hc.phases
    have hl : (Ledger.of run.moves).pipes = course.pipes.map .ok ∧
        (Ledger.of run.moves).forks = course.forks := by
      simp [hmoves, h1, h2, h3, h4]
    obtain ⟨stage, hstage, hchild⟩ := hc.staged.child i fork pid (hl.2 ▸ hi) hp
    exact ⟨course.pipes, hl.1, hc.pipes_length, stage, hstage, hchild,
      Child.ofStage_fate host bound course.pipes _ _ stage _⟩

/-- Whatever comes of its calls, a child has all in place before its program runs, or else fails
without it: the child of a command that stands alone, and that of each stage of a pipeline. -/
theorem forks_prepared (shell : Shell) (state : σ) :
    (∀ command : SimpleCommand, command.argv ≠ [] → command.builtin? = none →
      ∃ fork, (Ledger.of (trace host bound (runSimple shell command) state).moves).forks = [fork] ∧
        ∀ pid, fork.result = .ok pid → fork.Ran host bound (Child.ofCommand command)
          (Child.tasks none none command.slots) command.argv) ∧
    ∀ (pipeline : Pipeline) (i : Nat) (fork : Fork σ) (pid : Pid),
      let ledger := Ledger.of (trace host bound (runPipeline shell pipeline) state).moves
      ledger.forks[i]? = some fork → fork.result = .ok pid →
        ∃ pipes : List Pipe, ledger.pipes = pipes.map .ok ∧
          pipes.length + 1 = pipeline.length ∧ fork.RanStage host bound pipeline pipes i := by
  refine ⟨fun command hne hb => ?_, fun pipeline i fork pid => ?_⟩
  · rw [runSimple_program shell hne hb]
    exact runProgram_forks host bound shell hne _
  · exact fun hi hp => (trace_runPipeline_orderly host bound shell pipeline state).ran hi hp

/-- A command that stands alone, and a stage that is to have a descriptor that is not in use. -/
theorem forks_prepared_desk :
    let command : SimpleCommand := ⟨["ls"], { output := .toPath 1 .output "out" }, ∅, false⟩
    let refused : SimpleCommand := ⟨["wc"], { error := ⟨2, some 9, none, .output⟩ }, ∅, false⟩
    let pipeline : Pipeline := ⟨[command, refused], ∅⟩
    let desk : Desk := ⟨List.toAList [⟨0, .other 0⟩, ⟨1, .other 1⟩]⟩
    let alone := Ledger.of (trace Desk.host 0 (runSimple {} command) desk).moves
    let ledger := Ledger.of (trace Desk.host 0 (runPipeline {} pipeline) desk).moves
    (command.argv ≠ [] ∧ command.builtin? = none ∧ ∃ fork, alone.forks = [fork] ∧
      fork.result = .ok 2 ∧ fork.Ran Desk.host 0 (Child.ofCommand command)
        (Child.tasks none none command.slots) command.argv) ∧
    ∃ fork, ledger.forks[1]? = some fork ∧ fork.result = .ok 2 ∧
      ∃ pipes : List Pipe, ledger.pipes = pipes.map .ok ∧ pipes.length + 1 = pipeline.length ∧
        fork.RanStage Desk.host 0 pipeline pipes 1 := by
  intro command refused pipeline desk alone ledger
  obtain ⟨hsimple, hstages⟩ := forks_prepared Desk.host 0 {} desk
  obtain ⟨fork, hfork, hran⟩ := hsimple command (by decide) (by decide)
  have hresults : alone.forks.map Fork.result = [.ok 2] := by decide +kernel
  have hresult : fork.result = .ok 2 := by simpa [alone, hfork] using hresults
  have hsecond : (ledger.forks[1]?.map Fork.result) = some (.ok 2) := by decide +kernel
  obtain ⟨fork', hi, hresult'⟩ := Option.map_eq_some_iff.1 hsecond
  exact ⟨⟨by decide, by decide, fork, hfork, hresult, hran 2 hresult⟩,
    fork', hi, hresult', hstages pipeline 1 fork' 2 hi hresult'⟩

end Job

end TinyShell
