import TinyShell.Proofs.Rehearsal.Session
import TinyShell.Proofs.Shell.Reading
import TinyShell.Proofs.Shell.Verdict

/-!
# Chronicles

A shell lives by deeds: it collects its children, takes a line, runs a command that is no list, or
takes its leave. Between two deeds its state can be looked at. `Shell.Lives` is a sequence of deeds
that were carried through, each from where the one before ended.

`Shell.runLoop_unfolds` and `Shell.serve_unfolds`: everything that a shell does, in a session or on
orders that it is given, whatever the system answers and for as long as it is watched, is such a
sequence, and perhaps one more deed that was not carried through. In a session a shell that is to
stop does nothing more but take its leave (`Shell.Deed.InSession`).
-/

namespace TinyShell

open TinyShell.Action (trace Ensures Stays)

variable {σ α β : Type}

namespace Shell

/-- What a shell is given to do when it has no input of its own. -/
inductive Order where
  | line (text : String)
  | reap

/-- Orders one after the other. -/
def serve (shell : Shell) : List Order → Action Shell
  | [] => return shell
  | .line text :: rest => do
    let (_, shell) ← shell.runLine text
    serve shell rest
  | .reap :: rest => do
    let shell ← shell.reap
    serve shell rest

/-- The end of a session. -/
def takeLeave (shell : Shell) : Action Shell := do
  let pid ← Action.call .processId
  display "farewell" (shell.name ++ " (" ++ Text.decimal pid ++ ") was terminated\n")
  return shell

/-- What a shell does in one go. -/
inductive Deed where
  | reap
  /-- A line from the input. -/
  | prompt
  /-- A line by itself. -/
  | take (line : String)
  | run (command : Command)
  | leave

namespace Deed

def action (shell : Shell) : Deed → Action Shell
  | reap => shell.reap
  | prompt => shell.getCommand >>= fun result => pure result.2
  | take line => do
    Action.log ("run line: " ++ Text.quote line)
    shell.parseLine line
  | run command => Job.run shell command >>= fun result => pure result.2
  | leave => shell.takeLeave

/-- Lists are run in more than one go. -/
def Single : Deed → Prop
  | run command => command.Single
  | _ => True

/-- In a session only a running shell has anything to do but to leave. -/
def InSession (deed : Deed) (shell : Shell) : Prop :=
  match deed with
  | .leave => shell.running = false
  | _ => shell.running

end Deed

namespace Rules

variable {P : {α : Type} → Action α → Prop} (h : Rules P)
include h

theorem takeLeave (shell : Shell) : P shell.takeLeave :=
  h.bind (h.call rfl trivial) fun _ => h.bind (h.display _ _) fun _ => h.pure _

theorem deed (hread : ∀ buffer : LineBuffer, P (buffer.read .input)) (deed : Deed)
    (shell : Shell) : P (deed.action shell) := by
  cases deed with
  | reap => exact h.reap shell
  | prompt => exact h.bind (h.getCommand hread shell) fun _ => h.pure _
  | take line => exact h.bind (h.log _) fun _ => h.parseLine noWaitFailure_user shell line
  | run command => exact h.bind (h.run shell command) fun _ => h.pure _
  | leave => exact h.takeLeave shell

end Rules

/-- A deed that was carried through. -/
structure Episode (σ : Type) where
  deed : Deed
  before : Shell
  moves : List (Move σ)
  after : Shell

/-- What was done in all of them. -/
def Episode.allMoves (episodes : List (Episode σ)) : List (Move σ) := episodes.flatMap Episode.moves

/-- These deeds are what the shell did from one state to another. Each was `due` when it was
begun. -/
inductive Lives (host : Host σ) (bound : Nat) (due : Deed → Shell → Prop) :
    Shell → σ → List (Episode σ) → Shell → σ → Prop
  | rest {shell : Shell} {state : σ} : Lives host bound due shell state [] shell state
  | act {deed : Deed} {shell between after : Shell} {state mid last : σ} {moves : List (Move σ)}
    {episodes : List (Episode σ)} : deed.Single → due deed shell →
      trace host bound (deed.action shell) state = ⟨moves, some (.returned between, mid)⟩ →
      Lives host bound due between mid episodes after last →
      Lives host bound due shell state (⟨deed, shell, moves, between⟩ :: episodes) after last

section
variable {host : Host σ} {bound : Nat} {due : Deed → Shell → Prop} {shell between after : Shell}
  {state mid last : σ}

theorem Lives.append {first second : List (Episode σ)}
    (h : Lives host bound due shell state first between mid)
    (h' : Lives host bound due between mid second after last) :
    Lives host bound due shell state (first ++ second) after last := by
  induction h with
  | rest => exact h'
  | act hs hd ht _ ih => exact .act hs hd ht (ih h')

/-- The history up to a point between two deeds, and the history from there. -/
theorem Lives.parts {first second : List (Episode σ)}
    (h : Lives host bound due shell state (first ++ second) after last) :
    ∃ between mid, Lives host bound due shell state first between mid ∧
      Lives host bound due between mid second after last := by
  induction first generalizing shell state with
  | nil => exact ⟨shell, state, .rest, h⟩
  | cons e rest ih =>
    cases h with
    | act hs hd ht hl =>
      obtain ⟨between, mid, hl', he⟩ := ih hl
      exact ⟨between, mid, .act hs hd ht hl', he⟩

end

/-- How a deed ends that was not carried through, and with it all that would have followed: a loop
went on beyond the bound, or the process ended. -/
inductive Broken : Option (Ending Shell × σ) → Option (Ending α × σ) → Prop
  | cut : Broken none none
  | left {status : Status} {last : σ} :
    Broken (some (.exited status, last)) (some (.exited status, last))

/-- The run is a sequence of deeds of this shell, the last of which need not have been carried
through. If it was, `view` is the shell that the value of the run holds. -/
inductive Unfolds (host : Host σ) (bound : Nat) (due : Deed → Shell → Prop) (view : α → Shell)
    (shell : Shell) (state : σ) : Run σ α → Prop
  | returned {episodes : List (Episode σ)} {value : α} {last : σ} :
    Lives host bound due shell state episodes (view value) last →
      Unfolds host bound due view shell state
        ⟨Episode.allMoves episodes, some (.returned value, last)⟩
  /-- The bound of the loop was reached between two deeds. -/
  | paused {episodes : List (Episode σ)} {between : Shell} {mid : σ} :
    Lives host bound due shell state episodes between mid →
      Unfolds host bound due view shell state ⟨Episode.allMoves episodes, none⟩
  | broken {episodes : List (Episode σ)} {between : Shell} {mid : σ} {deed : Deed}
    {tail : List (Move σ)} {cut : Option (Ending Shell × σ)} {result : Option (Ending α × σ)} :
    Lives host bound due shell state episodes between mid → deed.Single → due deed between →
      trace host bound (deed.action between) mid = ⟨tail, cut⟩ → Broken cut result →
        Unfolds host bound due view shell state ⟨Episode.allMoves episodes ++ tail, result⟩

namespace Unfolds

variable {host : Host σ} {bound : Nat} {due : Deed → Shell → Prop} {view : α → Shell}
  {view' : β → Shell} {shell : Shell} {state : σ}

theorem rest {value : α} (h : view value = shell) :
    Unfolds host bound due view shell state (.pure value state) := by
  subst h
  exact .returned .rest

/-- A run that begins with a deed. -/
theorem prepend {between : Shell} {mid : σ} {run : Run σ α}
    (h : Unfolds host bound due view between mid run) {episodes : List (Episode σ)}
    (hl : Lives host bound due shell state episodes between mid) :
    Unfolds host bound due view shell state (run.after (Episode.allMoves episodes)) := by
  have hall (later : List (Episode σ)) :
      Episode.allMoves (episodes ++ later) = Episode.allMoves episodes ++ Episode.allMoves later :=
    List.flatMap_append
  cases h with
  | returned hl' =>
    rw [Run.after, ← hall]
    exact .returned (hl.append hl')
  | paused hl' =>
    rw [Run.after, ← hall]
    exact .paused (hl.append hl')
  | broken hl' hs hd ht hb =>
    rw [Run.after, ← List.append_assoc, ← hall]
    exact .broken (hl.append hl') hs hd ht hb

theorem bind {run : Run σ α} {next : α → σ → Run σ β}
    (h : Unfolds host bound due view shell state run)
    (hn : ∀ value last, run.result = some (.returned value, last) →
      Unfolds host bound due view' (view value) last (next value last)) :
    Unfolds host bound due view' shell state (run.bind next) := by
  cases h with
  | returned hl =>
    rw [Run.bind_of_returned rfl]
    exact (hn _ _ rfl).prepend hl
  | paused hl => exact .paused hl
  | broken hl hs hd ht hb =>
    cases hb with
    | cut => exact .broken hl hs hd ht .cut
    | left => exact .broken hl hs hd ht .left

/-- What only the value is made of. -/
theorem map {run : Run σ α} (h : Unfolds host bound due view shell state run) {f : α → β}
    (hf : ∀ value, view' (f value) = view value) :
    Unfolds host bound due view' shell state (run.bind fun value => .pure (f value)) :=
  h.bind fun value _ _ => .rest (hf value)

/-- One deed alone. -/
theorem deed (deed : Deed) (hs : deed.Single) (hd : due deed shell) {action : Action α}
    (ha : deed.action shell = action >>= fun value => pure (view value)) :
    Unfolds host bound due view shell state (trace host bound action state) := by
  have ht : trace host bound (deed.action shell) state =
      (trace host bound action state).bind fun value => .pure (view value) := by
    rw [ha, Action.trace_bind]
    rfl
  rcases hrun : trace host bound action state with ⟨moves, _ | ⟨value | status, last⟩⟩ <;>
    rw [hrun] at ht
  · exact .broken .rest hs hd ht .cut
  · rw [Run.bind_of_returned rfl, Run.pure, Run.after, List.append_nil] at ht
    have hlives : Lives host bound due shell state [⟨deed, shell, moves, view value⟩] (view value)
        last := .act hs hd ht .rest
    have hmoves : moves = Episode.allMoves [⟨deed, shell, moves, view value⟩] :=
      (List.append_nil moves).symm
    rw [hmoves]
    exact .returned hlives
  · exact .broken .rest hs hd ht .left

end Unfolds

/-! ## Commands -/

section
variable {host : Host σ} {bound : Nat} {due : Deed → Shell → Prop}

mutual

/-- A command unfolds into the commands in it that are no lists. -/
theorem run_unfolds (hgo : ∀ shell command, shell.running → due (.run command) shell)
    {shell : Shell} (hfirst : ∀ command, due (.run command) shell) (state : σ) :
    (command : Command) → Unfolds host bound due Prod.snd shell state
      (trace host bound (Job.run shell command) state)
  | .list entries _ => runEntries_unfolds hgo hfirst state 0 entries
  | .empty faults => .deed (.run (.empty faults)) trivial (hfirst _) rfl
  | .invalid faults => .deed (.run (.invalid faults)) trivial (hfirst _) rfl
  | .simple command => .deed (.run (.simple command)) trivial (hfirst _) rfl
  | .pipeline pipeline => .deed (.run (.pipeline pipeline)) trivial (hfirst _) rfl

theorem runEntries_unfolds (hgo : ∀ shell command, shell.running → due (.run command) shell)
    {shell : Shell} (hfirst : ∀ command, due (.run command) shell) (state : σ) (last : Status) :
    (entries : List Command) → Unfolds host bound due Prod.snd shell state
      (trace host bound (Job.runEntries shell last entries) state)
  | [] => .rest rfl
  | entry :: rest => by
    rw [Job.runEntries, Action.trace_bind]
    refine (run_unfolds hgo hfirst state entry).bind fun result mid _ => ?_
    obtain ⟨status, after⟩ := result
    by_cases hr : after.running
    · simp only [hr, if_true]
      exact runEntries_unfolds hgo (fun command => hgo after command hr) mid status rest
    · simp only [hr, Bool.false_eq_true, if_false]
      exact .rest rfl

end

/-! ## Sessions and orders -/

theorem reap_recruits (shell : Shell) :
    Ensures shell.reap (Ending.Returned shell.Recruits) := by
  have hpoll (pid : Pid) : Stays (poll pid) :=
    Stays.loopRules.poll trivial (fun _ => trivial) Ensures.display
  exact (Stays.loopRules.pollAll hpoll shell.background).andThen fun tracked _ =>
    .pure ⟨tracked, rfl⟩

theorem reap_ensures (shell : Shell) : Ensures shell.reap (Ending.Returned shell.Unmoved) :=
  (reap_recruits shell).mono fun _ h => h.mono fun _ => Recruits.unmoved

theorem parseLine_ensures (shell : Shell) (line : String) :
    Ensures (shell.parseLine line) (Ending.Returned
      (· = { shell with tokens := .ofLine line, command := .ofLine line })) := by
  refine (Ensures.log _).andThen fun _ _ => (Ensures.log _).andThen fun _ _ => ?_
  split
  · exact .pure rfl
  · exact (Stays.loopRules.advise (fun _ => trivial) _).andThen fun _ _ => .pure rfl

/-- What getting a command has made of the shell: nothing that counts if there is one, and otherwise
it is to stop, with a status for it if reading failed. -/
structure Got (shell : Shell) (ready : Bool) (after : Shell) : Prop where
  unmoved : ready → shell.Unmoved after
  stopped : ready = false → after.running = false
  lastStatus : after.lastStatus = shell.lastStatus ∨ ready = false ∧ after.lastStatus = 1

theorem getCommand_ensures (shell : Shell) :
    Ensures shell.getCommand (Ending.Returned fun result => shell.Got result.1 result.2) := by
  refine (Ensures.display _ _).andThen fun _ _ =>
    (Stays.loopRules.read trivial _).andThen fun result _ => ?_
  obtain ⟨_ | _ | errno, line⟩ := result
  · refine (parseLine_ensures { shell with line } line.text).andThen fun after h => .pure ?_
    subst h
    exact ⟨fun _ => ⟨rfl, rfl⟩, nofun, .inl rfl⟩
  · exact .pure ⟨nofun, fun _ => rfl, .inl rfl⟩
  · exact (Ensures.call _).andThen fun _ _ => .pure ⟨nofun, fun _ => rfl, .inr ⟨rfl, rfl⟩⟩

theorem takeLeave_ensures (shell : Shell) :
    Ensures shell.takeLeave (Ending.Returned fun after => after = shell) :=
  (Ensures.call _).andThen fun _ _ => (Ensures.display _ _).andThen fun _ _ => .pure rfl

/-- The value of an action that returned. -/
theorem of_ensures {action : Action α} {post : α → Prop}
    (h : Ensures action (Ending.Returned post)) {state last : σ} {value : α}
    (hr : (trace host bound action state).result = some (.returned value, last)) : post value :=
  h _ host bound state (.returned value) last (by rw [← Action.trace_result]; exact hr)

/-- What a session does is due: a prompt behind a reap, and any other deed in its place. -/
structure Allows (host : Host σ) (bound : Nat) (due : Deed → Shell → Prop) : Prop where
  deed : ∀ (deed : Deed) (shell : Shell), deed ≠ .prompt → deed.InSession shell → due deed shell
  prompt : ∀ (shell reaped : Shell) (state mid : σ), reaped.running →
    (trace host bound shell.reap state).result = some (.returned reaped, mid) → due .prompt reaped

theorem Deed.inSession_allows (host : Host σ) (bound : Nat) : Allows host bound InSession :=
  ⟨fun _ _ _ h => h, fun _ _ _ _ h _ => h⟩

theorem round_unfolds (ha : Allows host bound due) {shell : Shell} (hr : shell.running)
    (state : σ) : Unfolds host bound due id shell state (trace host bound shell.round state) := by
  have hgo (shell : Shell) (command : Command) (hr : shell.running) : due (.run command) shell :=
    ha.deed _ shell (by simp) hr
  rw [round, Action.trace_bind]
  have hreap : Unfolds host bound due id shell state (trace host bound shell.reap state) :=
    .deed .reap trivial (ha.deed _ shell (by simp) hr) (Behavior.bind_done _).symm
  refine hreap.bind fun reaped mid hreap => ?_
  have hreaped : reaped.running := (of_ensures (reap_ensures shell) hreap).running.trans hr
  rw [Action.trace_bind]
  have hget : Unfolds host bound due Prod.snd reaped mid
      (trace host bound reaped.getCommand mid) :=
    .deed .prompt trivial (ha.prompt shell reaped state mid hreaped hreap) rfl
  refine hget.bind fun result mid hget => ?_
  obtain ⟨ready, after⟩ := result
  have hgot := of_ensures (getCommand_ensures reaped) hget
  cases ready with
  | false => exact .rest rfl
  | true =>
    have hafter : after.running := (hgot.unmoved rfl).running.trans hreaped
    simp only [if_true]
    rw [Action.trace_bind]
    exact (run_unfolds hgo (hgo after · hafter) mid after.command).map fun _ => rfl

/-- The turns of a loop, up to so many. -/
abbrev turns (host : Host σ) (bound : Nat) : (count : Nat) → Shell → σ → Run σ Shell :=
  Action.traceRounds fun shell state => trace host bound (turn shell) state

theorem turns_unfold (ha : Allows host bound due) (count : Nat) (shell : Shell) (state : σ) :
    Unfolds host bound due id shell state (turns host bound count shell state) := by
  induction count generalizing shell state with
  | zero => exact .paused .rest
  | succ count ih =>
    rw [turns, Action.traceRounds]
    by_cases hr : shell.running
    · rw [turn_running hr, Action.trace_bind, Run.bind_assoc]
      exact (round_unfolds ha hr state).bind fun after mid _ => ih after mid
    · rw [turn_stopped (by simpa using hr)]
      exact .rest rfl

/-- The loop ends with a shell that is to stop. -/
theorem turns_stopped {count : Nat} {shell after : Shell} {state last : σ}
    (h : (turns host bound count shell state).result = some (.returned after, last)) :
    after.running = false := by
  induction count generalizing shell state with
  | zero => cases h
  | succ count ih =>
    rw [turns, Action.traceRounds] at h
    by_cases hr : shell.running
    · rw [turn_running hr, Action.trace_bind, Run.bind_assoc] at h
      obtain ⟨between, mid, -, h⟩ := Run.bind_returned h
      exact ih h
    · have hstop : shell.running = false := by simpa using hr
      rw [turn_stopped hstop] at h
      obtain ⟨rfl, -⟩ : shell = after ∧ state = last := by
        simpa [Run.pure, Run.bind, Run.after] using h
      exact hstop

/-- A session is its turns, and a farewell. -/
theorem runLoop_eq_takeLeave (shell : Shell) : shell.runLoop =
    Action.iterate turn shell >>= fun after =>
      after.takeLeave >>= fun last => pure (last.lastStatus, last) := by
  rw [runLoop_eq]
  simp only [takeLeave, Behavior.bind_assoc]
  rfl

theorem trace_runLoop (shell : Shell) (state : σ) :
    trace host bound shell.runLoop state =
      (turns host bound bound shell state).bind fun after mid =>
        (trace host bound after.takeLeave mid).bind fun last => .pure (last.lastStatus, last) := by
  have hturns : trace host bound (Action.iterate turn shell) state =
      turns host bound bound shell state := Action.trace_iterate ..
  rw [runLoop_eq_takeLeave, Action.trace_bind, hturns]
  simp only [Action.trace_bind]
  rfl

theorem runLoop_unfolds_due (ha : Allows host bound due) (shell : Shell) (state : σ) :
    Unfolds host bound due Prod.snd shell state (trace host bound shell.runLoop state) := by
  rw [trace_runLoop]
  refine (turns_unfold ha bound shell state).bind fun after mid hturns => ?_
  have hleave : Unfolds host bound due id after mid (trace host bound after.takeLeave mid) :=
    .deed .leave trivial (ha.deed _ after (by simp) (turns_stopped hturns))
      (Behavior.bind_done _).symm
  exact hleave.map fun _ => rfl

theorem runLoop_unfolds (shell : Shell) (state : σ) :
    Unfolds host bound Deed.InSession Prod.snd shell state
      (trace host bound shell.runLoop state) :=
  runLoop_unfolds_due (Deed.inSession_allows host bound) shell state

theorem runLine_unfolds {due : Deed → Shell → Prop} (hdue : ∀ deed shell, due deed shell)
    (shell : Shell) (line : String) (state : σ) :
    Unfolds host bound due Prod.snd shell state (trace host bound (shell.runLine line) state) := by
  have htake : Unfolds host bound due id shell state
      (trace host bound (Deed.action shell (.take line)) state) :=
    .deed (.take line) trivial (hdue _ _) (Behavior.bind_done _).symm
  have hline : shell.runLine line = Deed.action shell (.take line) >>= fun taken =>
      Job.run taken taken.command >>= fun result =>
        pure (lineStatus result.2 taken.command.isEmpty result.1, result.2) := by
    rw [Deed.action, Behavior.bind_assoc]
    rfl
  rw [hline, Action.trace_bind]
  refine htake.bind fun taken mid _ => ?_
  rw [Action.trace_bind]
  exact (run_unfolds (fun _ _ _ => hdue _ _) (fun _ => hdue _ _) mid taken.command).map
    fun _ => rfl

theorem serve_unfolds {due : Deed → Shell → Prop} (hdue : ∀ deed shell, due deed shell)
    (orders : List Order) (shell : Shell) (state : σ) :
    Unfolds host bound due id shell state (trace host bound (shell.serve orders) state) := by
  induction orders generalizing shell state with
  | nil => exact .rest rfl
  | cons order rest ih =>
    cases order with
    | line text =>
      rw [serve, Action.trace_bind]
      exact (runLine_unfolds hdue shell text state).bind fun result mid _ => ih result.2 mid
    | reap =>
      have hreap : Unfolds host bound due id shell state (trace host bound shell.reap state) :=
        .deed .reap trivial (hdue _ _) (Behavior.bind_done _).symm
      rw [serve, Action.trace_bind]
      exact hreap.bind fun after mid _ => ih after mid

end

end Shell

end TinyShell
