import TinyShell.Proofs.Shell.Chronicle

/-!
# Dealings with children

`dealings` are the calls in a trace that concern the children of a process, and `Says` tells which
texts it displayed. `Shell.Minds` is what each deed of a shell comes to in these terms: whom it
starts, waits for and looks at, what it says, and which children it goes on to track.

`Shell.Deed.tends`: a deed that is carried through does this and no more, whatever the system
answers. One that is cut short has not waited for anybody.
-/

namespace TinyShell

open TinyShell.Action (trace Calls Ensures Offhand)

variable {σ α β : Type}

/-- What is learnt by a look at a child. -/
abbrev Look := Except Errno (Option Status)

/-- The child still runs. -/
def stillRuns : Look → Bool
  | .ok none => true
  | _ => false

/-- A call that concerns children. -/
inductive Act where
  | started (pid : Pid)
  /-- No child could be started. -/
  | refused
  | awaited (pid : Pid)
  | polled (pid : Pid) (look : Look)
  deriving DecidableEq

def Move.act? : Move σ → Option Act
  | .forked _ (.ok pid) _ => some (.started pid)
  | .forked _ (.error _) _ => some .refused
  | .asked _ (.wait pid) _ => some (.awaited pid)
  | .asked _ (.tryWait pid) look => some (.polled pid look)
  | _ => none

/-- The calls that concern children, in order. -/
def dealings (moves : List (Move σ)) : List Act := moves.filterMap Move.act?

@[simp]
theorem dealings_nil : dealings ([] : List (Move σ)) = [] := rfl

@[simp]
theorem dealings_append (first second : List (Move σ)) :
    dealings (first ++ second) = dealings first ++ dealings second := List.filterMap_append

/-- A call that concerns no child, and writes nothing. -/
def Request.isPlain : Request → Bool
  | .wait _ | .tryWait _ | .write .. => false
  | _ => true

def Move.isWrite : Move σ → Bool
  | .asked _ (.write ..) _ => true
  | _ => false

theorem Move.isWrite_asked {before : σ} {request : Request} {reply : request.Reply}
    (h : request.isPlain) : (Move.asked before request reply).isWrite = false := by
  cases request <;> first | rfl | cases h

theorem Move.act?_asked {before : σ} {request : Request} {reply : request.Reply}
    (h : request.isPlain) : (Move.asked before request reply).act? = none := by
  cases request <;> first | rfl | cases h

/-- The texts that are displayed, each from its first call to its last. Nothing else is written. -/
inductive Says (host : Host σ) (bound : Nat) : List String → List (Move σ) → Prop
  | nothing : Says host bound [] []
  | other {move : Move σ} {moves : List (Move σ)} {texts : List String} :
    move.isWrite = false → Says host bound texts moves → Says host bound texts (move :: moves)
  | text {label text : String} {state last : σ} {texting moves : List (Move σ)}
    {texts : List String} :
    trace host bound (display label text) state = ⟨texting, some (.returned (), last)⟩ →
      Says host bound texts moves → Says host bound (text :: texts) (texting ++ moves)

section
variable {host : Host σ} {bound : Nat}

theorem Says.append {texts words : List String} {first second : List (Move σ)}
    (h : Says host bound texts first) (h' : Says host bound words second) :
    Says host bound (texts ++ words) (first ++ second) := by
  induction h with
  | nothing => exact h'
  | other hw _ ih => exact .other hw ih
  | text ht _ ih =>
    rw [List.append_assoc]
    exact .text ht ih

/-- Without a write, nothing is said. -/
theorem Says.of_silent {moves : List (Move σ)} (h : ∀ move ∈ moves, move.isWrite = false) :
    Says host bound [] moves := by
  induction moves with
  | nil => exact .nothing
  | cons move rest ih =>
    obtain ⟨hm, hr⟩ := List.forall_mem_cons.1 h
    exact .other hm (ih hr)

end

/-- Only plain calls, and no children. -/
abbrev Action.Plain (action : Action α) : Prop := Calls (·.isPlain) (fun _ => False) action

theorem Action.Plain.rules : LoopRules (·.isPlain) @Plain := Calls.loopRules

theorem Child.closePipes_plain (pipes : List Pipe) : Action.Plain (closePipes pipes) :=
  Action.Plain.rules.closePipes (fun _ => rfl) pipes

theorem Shell.parseLine_plain (shell : Shell) (line : String) :
    Action.Plain (shell.parseLine line) := Action.Plain.rules.parseLine (fun _ => rfl) shell line

/-! ## Runs -/

/-- An ending that, if it has a value, has one of which this holds. -/
def Ending.IfReturned (post : α → Prop) : Ending α → Prop
  | .returned value => post value
  | .exited _ => True

theorem Ending.Returned.ifReturned {post : α → Prop} {ending : Ending α}
    (h : ending.Returned post) : ending.IfReturned post := by
  cases ending with
  | returned value => exact h
  | exited status => exact h.elim

/-- If the run returns, `post` holds of its dealings, what it said, and its value. If it does not,
it has not waited for a child. -/
inductive Run.Tends (host : Host σ) (bound : Nat) (post : List Act → List String → α → Prop) :
    Run σ α → Prop
  | returned {moves : List (Move σ)} {value : α} {last : σ} {texts : List String} :
    Says host bound texts moves → post (dealings moves) texts value →
      Tends host bound post ⟨moves, some (.returned value, last)⟩
  | broken {moves : List (Move σ)} {result : Option (Ending α × σ)} :
    (∀ value last, result ≠ some (.returned value, last)) →
      (∀ pid, .awaited pid ∉ dealings moves) → Tends host bound post ⟨moves, result⟩

namespace Run.Tends

variable {host : Host σ} {bound : Nat} {post : List Act → List String → α → Prop}
  {post' : List Act → List String → β → Prop}

theorem pure {value : α} {state : σ} (h : post [] [] value) :
    (Run.pure value state).Tends host bound post := .returned .nothing h

theorem mono {post' : List Act → List String → α → Prop} {run : Run σ α}
    (h : run.Tends host bound post)
    (hp : ∀ acts texts value, post acts texts value → post' acts texts value) :
    run.Tends host bound post' := by
  cases h with
  | returned hs h => exact .returned hs (hp _ _ _ h)
  | broken hr hw => exact .broken hr hw

/-- A run that was watched for too short a time to see it end. -/
theorem cut {moves : List (Move σ)} (hw : ∀ pid, .awaited pid ∉ dealings moves) :
    (⟨moves, none⟩ : Run σ α).Tends host bound post := .broken (by simp) hw

theorem exited {moves : List (Move σ)} {status : Status} {last : σ}
    (hw : ∀ pid, .awaited pid ∉ dealings moves) :
    (⟨moves, some (.exited status, last)⟩ : Run σ α).Tends host bound post := .broken (by simp) hw

/-- What follows a run that did not return is not begun. -/
theorem broken_bind {run : Run σ α} {next : α → σ → Run σ β}
    (hr : ∀ value last, run.result ≠ some (.returned value, last))
    (hw : ∀ pid, .awaited pid ∉ dealings run.moves) : (run.bind next).Tends host bound post' := by
  obtain ⟨moves, result⟩ := run
  rcases result with _ | ⟨value | status, last⟩
  · exact .cut hw
  · exact absurd rfl (hr value last)
  · exact .exited hw

/-- One run after another, of which the first does not wait. -/
theorem bind {run : Run σ α} {next : α → σ → Run σ β} (h : run.Tends host bound post)
    (hq : ∀ acts texts value, post acts texts value → ∀ pid, .awaited pid ∉ acts)
    (hn : ∀ acts texts value last, post acts texts value →
      (next value last).Tends host bound fun more words => post' (acts ++ more) (texts ++ words)) :
    (run.bind next).Tends host bound post' := by
  cases h with
  | @returned moves value last texts hs h =>
    have hnext := hn _ _ value last h
    rw [Run.bind_of_returned rfl]
    rcases hrun : next value last with ⟨more, result⟩
    rw [hrun] at hnext
    cases hnext with
    | returned hs' h' =>
      exact .returned (hs.append hs') (by rw [dealings_append]; exact h')
    | broken hr hw =>
      refine .broken hr fun pid hm => ?_
      rw [dealings_append] at hm
      exact (List.mem_append.1 hm).elim (hq _ _ _ h pid) (hw pid)
  | broken hr hw => exact broken_bind hr hw

/-- One run after another, of which the first has no dealings and says this. -/
theorem andThen {run : Run σ α} {next : α → σ → Run σ β} {said : List String}
    (h : run.Tends host bound fun acts texts _ => acts = [] ∧ texts = said)
    (hn : ∀ value last,
      (next value last).Tends host bound fun acts texts => post' acts (said ++ texts)) :
    (run.bind next).Tends host bound post' := by
  refine h.bind ?_ ?_
  · rintro _ _ _ ⟨rfl, -⟩
    simp
  · rintro _ _ value last ⟨rfl, rfl⟩
    exact hn value last

/-- What only the value is made of. -/
theorem map {run : Run σ α} {f : α → β} (h : run.Tends host bound post)
    (hp : ∀ acts texts value, post acts texts value → post' acts texts (f value)) :
    (run.bind fun value => .pure (f value)).Tends host bound post' := by
  cases h with
  | returned hs h =>
    rw [Run.bind_of_returned rfl, Run.pure, Run.after, List.append_nil]
    exact .returned hs (hp _ _ _ h)
  | broken hr hw => exact broken_bind hr hw

/-- A run that always returns may wait. -/
theorem of_returns {run : Run σ α} (h : run.Returns fun moves value _ =>
    ∃ texts, Says host bound texts moves ∧ post (dealings moves) texts value) :
    run.Tends host bound post := by
  obtain ⟨moves, value, state, rfl, texts, hs, h⟩ := h.elim
  exact .returned hs h

variable {state : σ}

/-- What is known of the value from elsewhere. -/
theorem and {action : Action α} {holds : α → Prop}
    (h : (trace host bound action state).Tends host bound post)
    (he : Ensures action (Ending.IfReturned holds)) :
    (trace host bound action state).Tends host bound fun acts texts value =>
      post acts texts value ∧ holds value := by
  have hend (value : α) (last : σ)
      (hr : (trace host bound action state).result = some (.returned value, last)) : holds value :=
    he σ host bound state (.returned value) last (by rw [← Action.trace_result]; exact hr)
  rcases hrun : trace host bound action state with ⟨moves, result⟩
  rw [hrun] at h hend
  cases h with
  | returned hs h => exact .returned hs ⟨h, hend _ _ rfl⟩
  | broken hr hw => exact .broken hr hw

/-- Plain calls are no dealings, and say nothing. -/
theorem plain {action : Action α} (hc : Action.Plain action) :
    (trace host bound action state).Tends host bound fun acts texts _ =>
      acts = [] ∧ texts = [] := by
  have hmoves := hc.moves host bound state
  have hnone : dealings (trace host bound action state).moves = [] := by
    refine List.filterMap_eq_nil_iff.2 fun move hm => ?_
    have hallowed := hmoves move hm
    cases move with
    | asked => exact Move.act?_asked hallowed
    | executed => rfl
    | forked => exact hallowed.elim fun _ h => h.elim
  have hsilent : ∀ move ∈ (trace host bound action state).moves, move.isWrite = false := by
    intro move hm
    have hallowed := hmoves move hm
    cases move with
    | asked => exact Move.isWrite_asked hallowed
    | executed | forked => rfl
  rcases hrun : trace host bound action state with ⟨moves, _ | ⟨value | status, last⟩⟩ <;>
    rw [hrun] at hnone hsilent
  · exact .cut (by simp [hnone])
  · exact .returned (.of_silent hsilent) ⟨hnone, rfl⟩
  · exact .exited (by simp [hnone])

/-- A plain call. -/
theorem call {request : Request} (h : request.isPlain) :
    (trace host bound (Action.call request) state).Tends host bound fun acts texts _ =>
      acts = [] ∧ texts = [] :=
  .returned (.other (Move.isWrite_asked h) .nothing)
    ⟨List.filterMap_cons_none (Move.act?_asked h), rfl⟩

theorem log (text : String) :
    (trace host bound (Action.log text) state).Tends host bound fun acts texts _ =>
      acts = [] ∧ texts = [] := .returned .nothing ⟨rfl, rfl⟩

theorem display (label text : String) :
    (trace host bound (display label text) state).Tends host bound fun acts texts _ =>
      acts = [] ∧ texts = [text] := by
  have hwrites := display_writes host bound label text state
  have hnone : dealings (trace host bound (TinyShell.display label text) state).moves = [] := by
    refine List.filterMap_eq_nil_iff.2 fun move hm => ?_
    obtain ⟨before, bytes, reply, rfl⟩ := hwrites.moves move hm
    rfl
  rcases hrun : trace host bound (TinyShell.display label text) state with
    ⟨moves, _ | ⟨value | status, last⟩⟩ <;> rw [hrun] at hnone
  · exact .cut (by simp [hnone])
  · refine .returned ?_ ⟨hnone, rfl⟩
    have htexts : Says host bound [text] (moves ++ []) := .text hrun .nothing
    rwa [List.append_nil] at htexts
  · exact absurd (by rw [hrun]) (hwrites.stays status last)

/-- A child that ends, or that could not be started. -/
theorem fork {child : Action Status} (hc : Offhand child) :
    (trace host bound (Action.fork child) state).Tends host bound fun acts texts result =>
      texts = [] ∧ acts = match result with
        | .ok pid => [.started pid]
        | .error _ => [.refused] := by
  have hsilent (before : σ) (result : Except Errno Pid) (moves : List (Move σ)) :
      Says host bound [] [.forked before result moves] := .other rfl .nothing
  rw [Action.fork]
  rcases hf : host.fork state with ⟨errno | pid, state'⟩
  · rw [Action.trace_spawn_error hf]
    exact .returned (hsilent _ _ _) ⟨rfl, rfl⟩
  · obtain ⟨⟨ending, after⟩, hr⟩ :=
      Option.isSome_iff_exists.1 (hc.loopless.isSome host bound state')
    rw [Action.trace_spawn_ok hf hr]
    exact .returned (hsilent _ _ _) ⟨rfl, rfl⟩

end Run.Tends

/-! ## What a deed comes to -/

/-- A command that is to go on in the background. -/
def Command.isBackground : Command → Bool
  | simple command => command.background
  | pipeline stages => stages.isBackground
  | empty _ | invalid _ | list .. => false

/-- That a child goes on in the background. -/
def startNotice (pid : Pid) : String := "[" ++ Text.decimal pid ++ "]\n"

/-- That a child has ended; other looks at it are not worth a notice. -/
def endNotice (pid : Pid) : Look → List String
  | .ok (some status) => ["[" ++ Text.decimal pid ++ "] Done " ++ Text.decimal status ++ "\n"]
  | _ => []

/-- The end of a series of starts. -/
def refusal (failed : Bool) : List Act := if failed then [.refused] else []

/-- What a deed comes to: its dealings, what is said, and the shell behind it. -/
inductive Shell.Minds (shell : Shell) : Deed → List Act → List String → Shell → Prop
  /-- Children in the background are announced and tracked, each once and in the order of their
  start. -/
  | launched {command : Command} {pids : List Pid} {after : Shell} : command.isBackground →
    after.background = shell.background ++ pids →
      Minds shell (.run command) (pids.map .started) (pids.map startNotice) after
  /-- Other children are waited for, each once and in the order of their start; so are those of a
  series that broke off. -/
  | awaited {command : Command} {pids : List Pid} {failed : Bool} {after : Shell} :
    (command.isBackground → failed) → after.background = shell.background →
      Minds shell (.run command) (pids.map .started ++ refusal failed ++ pids.map .awaited) [] after
  /-- There is one look at each tracked child, in order, and those that still run are tracked on. -/
  | reaped {looks : List (Pid × Look)} {after : Shell} :
    looks.map Prod.fst = shell.background →
      after.background = (looks.filter fun look => stillRuns look.2).map Prod.fst →
        Minds shell .reap (looks.map fun look => .polled look.1 look.2)
          (looks.flatMap fun look => endNotice look.1 look.2) after
  | prompted {after : Shell} : after.background = shell.background →
    Minds shell .prompt [] [shell.prompt] after
  | took {line : String} {after : Shell} : after.background = shell.background →
    Minds shell (.take line) [] [] after
  | left (pid : Pid) :
    Minds shell .leave [] [shell.name ++ " (" ++ Text.decimal pid ++ ") was terminated\n"] shell

section
variable {host : Host σ} {bound : Nat} {state : σ}

namespace Job

theorem waitFor_awaits (pid : Pid) (state : σ) :
    (trace host bound (waitFor pid) state).Returns fun moves _ _ =>
      Says host bound [] moves ∧ dealings moves = [.awaited pid] := by
  rw [waitFor, Action.trace_call_bind]
  have htexts (reply : Except Errno Status) :
      Says host bound [] [.asked state (.wait pid) reply] := .other rfl .nothing
  rcases host.answer (.wait pid) state with ⟨errno | status, state'⟩
  · exact .after ⟨_, _, rfl, (htexts _).append (.other rfl .nothing), rfl⟩
  · exact .after (.pure ⟨htexts _, rfl⟩)

theorem waitForAll_awaits (last : Status) (pids : List Pid) (state : σ) :
    (trace host bound (waitForAll last pids) state).Returns fun moves _ _ =>
      Says host bound [] moves ∧ dealings moves = pids.map .awaited := by
  induction pids generalizing last state with
  | nil => exact .pure ⟨.nothing, rfl⟩
  | cons pid rest ih =>
    rw [waitForAll, Action.trace_bind]
    refine (waitFor_awaits pid state).bind ?_
    rintro moves status after ⟨hs, hd⟩
    refine (ih status after).mono ?_
    rintro more _ _ ⟨hs', hd'⟩
    exact ⟨hs.append hs', by rw [dealings_append, hd, hd']; rfl⟩

theorem track_tends (shell : Shell) (pids : List Pid) (state : σ) :
    (trace host bound (track shell pids) state).Tends host bound fun acts texts after =>
      acts = [] ∧ texts = pids.map startNotice ∧
        after.background = shell.background ++ pids := by
  induction pids generalizing shell state with
  | nil => exact .pure ⟨rfl, rfl, (List.append_nil _).symm⟩
  | cons pid rest ih =>
    rw [track, Action.trace_bind]
    refine (Run.Tends.display _ _).andThen fun _ last => (ih _ last).mono ?_
    rintro _ _ after ⟨rfl, rfl, hb⟩
    exact ⟨rfl, rfl, by simp [hb]⟩

theorem reportFork_tends (errno : Errno) (state : σ) :
    (trace host bound (reportFork errno) state).Tends host bound fun acts texts _ =>
      acts = [] ∧ texts = [] := .plain (.call rfl)

theorem runProgram_tends (shell : Shell) (command : SimpleCommand) (state : σ) :
    (trace host bound (runProgram shell command) state).Tends host bound fun acts texts result =>
      shell.Minds (.run (.simple command)) acts texts result.2 := by
  rw [runProgram, Action.trace_bind]
  refine (Run.Tends.fork (Child.ofCommand_offhand command)).bind ?_ ?_
  · rintro _ _ (errno | pid) ⟨rfl, rfl⟩ <;> simp
  · rintro _ _ (errno | pid) last ⟨rfl, rfl⟩
    · simp only [Action.trace_bind]
      refine (reportFork_tends errno last).map ?_
      rintro _ _ _ ⟨rfl, rfl⟩
      exact @Shell.Minds.awaited shell _ [] true shell (fun _ => rfl) rfl
    · by_cases hb : command.background
      · simp only [hb, if_true, Action.trace_bind]
        refine (track_tends shell [pid] last).map ?_
        rintro _ _ after ⟨rfl, rfl, hafter⟩
        exact @Shell.Minds.launched shell _ [pid] after hb hafter
      · simp only [hb, Bool.false_eq_true, if_false, Action.trace_bind]
        refine .of_returns ((waitFor_awaits pid last).bind ?_)
        rintro moves status after ⟨hs, hd⟩
        refine .pure ⟨[], by rwa [List.append_nil], ?_⟩
        rw [List.append_nil, hd]
        exact @Shell.Minds.awaited shell _ [pid] false shell (fun h => absurd h hb) rfl

theorem spawnStages_tends (pipes : List Pipe) (before : Option Pipe) (after : List Pipe)
    (stages : List SimpleCommand) (state : σ) :
    (trace host bound (spawnStages pipes before after stages) state).Tends host bound
      fun acts texts made => texts = [] ∧ acts = made.1.map .started ++ refusal made.2 := by
  induction stages generalizing before after state with
  | nil => exact .pure ⟨rfl, rfl⟩
  | cons stage rest ih =>
    rw [spawnStages, Action.trace_bind]
    refine (Run.Tends.fork (Child.ofStage_offhand ..)).bind ?_ ?_
    · rintro _ _ (errno | pid) ⟨rfl, rfl⟩ <;> simp
    · rintro _ _ (errno | pid) last ⟨rfl, rfl⟩
      · simp only [Action.trace_bind]
        refine (reportFork_tends errno last).map ?_
        rintro _ _ _ ⟨rfl, rfl⟩
        exact ⟨rfl, rfl⟩
      · simp only [Action.trace_bind]
        refine (ih _ _ last).map ?_
        rintro _ _ made ⟨rfl, rfl⟩
        exact ⟨rfl, rfl⟩

/-- What is left to do for children that were started. -/
theorem conclude_tends (shell : Shell) (pipeline : Pipeline) (pids : List Pid) (failed : Bool)
    (state : σ) :
    (trace host bound (conclude shell pipeline pids failed) state).Tends host bound
      fun acts texts result => shell.Minds (.run (.pipeline pipeline))
        (pids.map .started ++ refusal failed ++ acts) texts result.2 := by
  unfold conclude
  split
  · rename_i hb
    obtain ⟨hback, rfl⟩ : pipeline.isBackground ∧ failed = false := by simpa using hb
    rw [Action.trace_bind]
    refine (track_tends shell pids state).map ?_
    rintro _ _ after ⟨rfl, rfl, hafter⟩
    rw [List.append_nil, refusal, if_neg Bool.false_ne_true, List.append_nil]
    exact .launched hback hafter
  · rename_i hb
    rw [Action.trace_bind]
    refine .of_returns ((waitForAll_awaits 0 pids state).bind ?_)
    rintro moves status after ⟨hs, hd⟩
    refine .pure ⟨[], by rwa [List.append_nil], ?_⟩
    rw [List.append_nil, hd]
    exact .awaited (fun h => by simpa [show pipeline.isBackground from h] using hb) rfl

theorem runPipeline_tends (shell : Shell) (pipeline : Pipeline) (state : σ) :
    (trace host bound (runPipeline shell pipeline) state).Tends host bound fun acts texts result =>
      shell.Minds (.run (.pipeline pipeline)) acts texts result.2 := by
  -- whether it is for the background or not, nothing was started
  have hnone : shell.Minds (.run (.pipeline pipeline)) [] [] shell := by
    by_cases hb : pipeline.isBackground
    · exact @Shell.Minds.launched shell _ [] shell hb (List.append_nil _).symm
    · exact @Shell.Minds.awaited shell _ [] false shell (fun h => absurd h hb) rfl
  by_cases hne : pipeline.stages = []
  · simp only [runPipeline, hne, List.isEmpty_nil, if_true]
    exact .pure hnone
  rw [runPipeline_eq hne, Action.trace_bind]
  refine (Run.Tends.plain (Action.Plain.rules.makePipes rfl _)).andThen ?_
  rintro ⟨pipes, _ | errno⟩ last
  · simp only [runStages_eq, Action.trace_bind]
    refine (spawnStages_tends ..).bind ?_ ?_
    · rintro _ _ ⟨pids, _ | _⟩ ⟨rfl, rfl⟩ <;> simp [refusal]
    rintro _ _ ⟨pids, failed⟩ last ⟨rfl, rfl⟩
    exact (Run.Tends.plain (Child.closePipes_plain pipes)).andThen fun _ last =>
      conclude_tends shell pipeline pids failed last
  · simp only [Action.trace_bind]
    refine (Run.Tends.call rfl).andThen fun _ last =>
      (Run.Tends.plain (Child.closePipes_plain pipes)).map ?_
    rintro _ _ _ ⟨rfl, rfl⟩
    exact hnone

end Job

namespace Shell

theorem poll_tends (pid : Pid) (state : σ) :
    (trace host bound (poll pid) state).Tends host bound fun acts texts tracked =>
      ∃ look, acts = [.polled pid look] ∧ texts = endNotice pid look ∧
        tracked = stillRuns look := by
  have hlook : (trace host bound (Action.call (.tryWait pid)) state).Tends host bound
      fun acts texts look => acts = [.polled pid look] ∧ texts = [] :=
    .returned (.other rfl .nothing) ⟨rfl, rfl⟩
  rw [poll, Action.trace_bind]
  refine hlook.bind ?_ ?_
  · rintro _ _ _ ⟨rfl, -⟩
    simp
  rintro _ _ look last ⟨rfl, rfl⟩
  rcases look with errno | _ | status
  · have hreport : (trace host bound (do
        Action.report .system ("wait for " ++ Text.decimal pid ++ " failed: " ++ errno.text)
        return false) last).Tends host bound fun acts texts tracked =>
          ∃ look, [Act.polled pid (.error errno)] ++ acts = [.polled pid look] ∧
            [] ++ texts = endNotice pid look ∧ tracked = stillRuns look := by
      rw [Action.trace_bind]
      refine (Run.Tends.call rfl).map ?_
      rintro _ _ _ ⟨rfl, rfl⟩
      exact ⟨.error errno, rfl, rfl, rfl⟩
    cases errno <;> first | exact hreport | exact .pure ⟨_, rfl, rfl, rfl⟩
  · exact .pure ⟨_, rfl, rfl, rfl⟩
  · simp only [Action.trace_bind]
    refine (Run.Tends.display _ _).map ?_
    rintro _ _ _ ⟨rfl, rfl⟩
    exact ⟨.ok (some status), rfl, rfl, rfl⟩

theorem pollAll_tends (pids : List Pid) (state : σ) :
    (trace host bound (pollAll pids) state).Tends host bound fun acts texts tracked =>
      ∃ looks : List (Pid × Look), looks.map Prod.fst = pids ∧
        acts = (looks.map fun look => .polled look.1 look.2) ∧
        texts = (looks.flatMap fun look => endNotice look.1 look.2) ∧
        tracked = (looks.filter fun look => stillRuns look.2).map Prod.fst := by
  induction pids generalizing state with
  | nil => exact .pure ⟨[], rfl, rfl, rfl, rfl⟩
  | cons pid rest ih =>
    rw [pollAll, Action.trace_bind]
    refine (poll_tends pid state).bind ?_ ?_
    · rintro _ _ _ ⟨look, rfl, -⟩
      simp
    rintro _ _ _ last ⟨look, rfl, rfl, rfl⟩
    rw [Action.trace_bind]
    refine (ih last).map ?_
    rintro _ _ _ ⟨looks, rfl, rfl, rfl, rfl⟩
    refine ⟨(pid, look) :: looks, rfl, rfl, rfl, ?_⟩
    by_cases hr : stillRuns look <;> simp [hr]

theorem reap_tends (shell : Shell) (state : σ) :
    (trace host bound shell.reap state).Tends host bound fun acts texts after =>
      shell.Minds .reap acts texts after := by
  rw [reap, Action.trace_bind]
  refine (pollAll_tends _ state).map ?_
  rintro _ _ _ ⟨looks, hpids, rfl, rfl, rfl⟩
  exact .reaped hpids rfl

theorem getCommand_tends (shell : Shell) (state : σ) :
    (trace host bound shell.getCommand state).Tends host bound fun acts texts result =>
      acts = [] ∧ texts = [shell.prompt] ∧ result.2.background = shell.background := by
  rw [getCommand, Action.trace_bind]
  refine (Run.Tends.display _ _).andThen fun _ last => ?_
  rw [Action.trace_bind]
  have hread : Action.Plain (shell.line.read .input) := Action.Plain.rules.read rfl _
  refine (Run.Tends.plain hread).andThen ?_
  rintro ⟨_ | _ | errno, line⟩ last
  · simp only [Action.trace_bind]
    refine ((Run.Tends.plain (parseLine_plain _ _)).and
      ((parseLine_ensures _ _).mono fun _ => Ending.Returned.ifReturned)).map ?_
    rintro _ _ _ ⟨⟨rfl, rfl⟩, rfl⟩
    exact ⟨rfl, rfl, rfl⟩
  · exact .pure ⟨rfl, rfl, rfl⟩
  · simp only [Action.trace_bind]
    refine (Run.Tends.call rfl).map ?_
    rintro _ _ _ ⟨rfl, rfl⟩
    exact ⟨rfl, rfl, rfl⟩

/-- A builtin tracks nobody, and so does a command that is no program. -/
theorem Minds.idle {shell after : Shell} (h : after.background = shell.background)
    (command : Command) : shell.Minds (.run command) [] [] after := by
  by_cases hb : command.isBackground
  · exact @Minds.launched shell command [] after hb (by rw [h, List.append_nil])
  · exact @Minds.awaited shell command [] false after (fun hback => absurd hback hb) h

theorem runSimple_tends (shell : Shell) (command : SimpleCommand) (state : σ) :
    (trace host bound (Job.runSimple shell command) state).Tends host bound
      fun acts texts result => shell.Minds (.run (.simple command)) acts texts result.2 := by
  have hplain (builtin : Builtin) : Action.Plain (builtin.run shell command.argv) :=
    Action.Plain.rules.runBuiltin (fun _ => rfl) (fun _ => rfl) .exit shell command.argv builtin
  have hbuiltin (builtin : Builtin) : Ensures (builtin.run shell command.argv)
      (Ending.IfReturned fun result => result.2.background = shell.background) := by
    cases builtin with
    | cd =>
      refine ((Ensures.call _).andThen fun reply _ => ?_).mono fun _ => Ending.Returned.ifReturned
      rcases reply with errno | _
      · exact (Ensures.call _).andThen fun _ _ => .pure rfl
      · exact .pure rfl
    | exit => exact (Ensures.log _).andThen fun _ _ => .exit trivial
    | quit => exact .pure rfl
  unfold Job.runSimple
  split
  · exact .pure (.idle rfl _)
  · split
    · rw [Action.trace_bind]
      refine (Run.Tends.log _).andThen fun _ last =>
        ((Run.Tends.plain (hplain _)).and (hbuiltin _)).mono ?_
      rintro _ _ result ⟨⟨rfl, rfl⟩, hkept⟩
      exact .idle hkept _
    · rw [Action.trace_bind]
      exact (Run.Tends.log _).andThen fun _ last => Job.runProgram_tends shell command last

/-- What a deed comes to, whatever the system answers. -/
theorem Deed.tends {deed : Deed} (hs : deed.Single) (shell : Shell) (state : σ) :
    (trace host bound (deed.action shell) state).Tends host bound (shell.Minds deed) := by
  cases deed with
  | reap => exact reap_tends shell state
  | prompt =>
    rw [Deed.action, Action.trace_bind]
    refine (getCommand_tends shell state).map ?_
    rintro _ _ _ ⟨rfl, rfl, hkept⟩
    exact .prompted hkept
  | take line =>
    rw [Deed.action, Action.trace_bind]
    refine (Run.Tends.log _).andThen fun _ last => ((Run.Tends.plain (parseLine_plain _ _)).and
      ((parseLine_ensures _ _).mono fun _ => Ending.Returned.ifReturned)).mono ?_
    rintro _ _ _ ⟨⟨rfl, rfl⟩, rfl⟩
    exact .took rfl
  | run command =>
    rw [Deed.action, Action.trace_bind]
    have hrun : (trace host bound (Job.run shell command) state).Tends host bound
        fun acts texts result => shell.Minds (.run command) acts texts result.2 := by
      cases command with
      | empty faults => exact .pure (.idle rfl _)
      | invalid faults =>
        rw [Job.run, Action.trace_bind]
        refine (Run.Tends.call rfl).map ?_
        rintro _ _ _ ⟨rfl, rfl⟩
        exact .idle rfl _
      | simple command => exact runSimple_tends shell command state
      | pipeline pipeline => exact Job.runPipeline_tends shell pipeline state
      | list => exact hs.elim
    exact hrun.map fun _ _ _ h => h
  | leave =>
    rw [Deed.action, takeLeave, Action.trace_bind]
    refine (Run.Tends.call rfl).andThen fun pid last => ?_
    rw [Action.trace_bind]
    refine (Run.Tends.display _ _).map ?_
    rintro _ _ _ ⟨rfl, rfl⟩
    exact .left pid

end Shell

end

end TinyShell
