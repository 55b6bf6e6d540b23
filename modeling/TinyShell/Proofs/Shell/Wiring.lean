import TinyShell.Proofs.Shell.Desk
import TinyShell.Proofs.Shell.Pipeline
import TinyShell.Proofs.Shell.Still

/-!
# The wiring of a pipeline

`runPipeline_wired`: on a system that keeps descriptor tables, the program of each stage finds the
pipes on its sides, or the files of its redirections, as its input and output, and all else as the
shell had it. No other descriptor stands for an end of a pipe, neither in a program nor, once all
stages are started, in the shell.

`Plumbed` is the table of the shell between the first pipe and the last close. It is what the calls
for pipes make (`makePipes_plumbed`), what each child starts with (`spawnStages_rests`), and what
closing all pipes undoes (`Plumbed.closed`), in a child (`ofStage_executes`) as in the shell
(`runStages_wired`).
-/

namespace TinyShell

variable {σ : Type}

/-- The number of the pipe that a stage reads. -/
def idBefore (ids : List Nat) : Nat → Option Nat
  | 0 => none
  | i + 1 => ids[i]?

/-- The table of a process that has these pipes besides, each with a number of its own. -/
structure Plumbed (base : Table) (pipes : List Pipe) (ids : List Nat) (table : Table) :
    Prop where
  nodup : ids.Nodup
  fresh : ∀ id ∈ ids, base.Lacks id
  free : ∀ fd ∈ Pipe.ends pipes, base fd = none
  readEnds : (pipes.map fun pipe => table pipe.readEnd) = ids.map fun id => some (.readEnd id)
  writeEnds : (pipes.map fun pipe => table pipe.writeEnd) = ids.map fun id => some (.writeEnd id)
  outside : ∀ fd, fd ∉ Pipe.ends pipes → table fd = base fd

namespace Plumbed

variable {base table : Table} {pipes : List Pipe} {ids : List Nat}

theorem nil (base : Table) : Plumbed base [] [] base :=
  ⟨.nil, by simp, by simp, rfl, rfl, fun _ _ => rfl⟩

theorem length (h : Plumbed base pipes ids table) : ids.length = pipes.length := by
  simpa using (congrArg List.length h.readEnds).symm

/-- One more pipe, made before the others. -/
theorem cons {pipe : Pipe} {id : Nat} (hf : base.Fits pipe) (hid : base.Lacks id)
    (h : Plumbed (base.withPipe pipe id) pipes ids table) :
    Plumbed base (pipe :: pipes) (id :: ids) table := by
  have hr : pipe.readEnd ∉ Pipe.ends pipes := by
    intro hm
    have := h.free _ hm
    rw [Table.withPipe_readEnd hf] at this
    cases this
  have hw : pipe.writeEnd ∉ Pipe.ends pipes := by
    intro hm
    have := h.free _ hm
    rw [Table.withPipe_writeEnd] at this
    cases this
  refine ⟨List.nodup_cons.2 ⟨fun hm => ?_, h.nodup⟩, ?_, ?_, ?_, ?_, ?_⟩
  · exact (h.fresh id hm pipe.readEnd).1 (Table.withPipe_readEnd hf)
  · exact List.forall_mem_cons.2 ⟨hid, fun other hm => hf.lacks (h.fresh other hm)⟩
  · rw [Pipe.ends_cons]
    exact List.forall_mem_cons.2 ⟨hf.readEnd, List.forall_mem_cons.2 ⟨hf.writeEnd,
      fun fd hm => hf.free (h.free fd hm)⟩⟩
  · rw [List.map_cons, List.map_cons, h.outside _ hr, Table.withPipe_readEnd hf, h.readEnds]
  · rw [List.map_cons, List.map_cons, h.outside _ hw, Table.withPipe_writeEnd, h.writeEnds]
  · intro fd hfd
    rw [Pipe.ends_cons, List.mem_cons, List.mem_cons, not_or, not_or] at hfd
    rw [h.outside fd hfd.2.2, Table.withPipe_other hfd.1 hfd.2.1]

theorem read_before (h : Plumbed base pipes ids table) (i : Nat) :
    ((Job.pipeBefore none pipes i).map fun pipe => table pipe.readEnd) =
      (idBefore ids i).map fun id => some (.readEnd id) := by
  rcases i with _ | i
  · rfl
  · simpa [Job.pipeBefore, idBefore] using congrArg (fun ends => ends[i]?) h.readEnds

theorem write_after (h : Plumbed base pipes ids table) (i : Nat) :
    (pipes[i]?.map fun pipe => table pipe.writeEnd) =
      ids[i]?.map fun id => some (.writeEnd id) := by
  simpa using congrArg (fun ends => ends[i]?) h.writeEnds

/-- Closing all pipes leaves what was there without them, and what was put in the place of
descriptors that are in use. -/
theorem closed (h : Plumbed base pipes ids table) {input output : Descriptor}
    (hi : base input ≠ none) (ho : base output ≠ none) (file file' : Option OpenFile) :
    ((table.override input file).override output file').without (Pipe.ends pipes) =
      (base.override input file).override output file' := by
  funext fd
  by_cases hfd : fd ∈ Pipe.ends pipes
  · have hnone := h.free fd hfd
    have hfi : fd ≠ input := by
      rintro rfl
      exact hi hnone
    have hfo : fd ≠ output := by
      rintro rfl
      exact ho hnone
    simp [Table.without, hfd, hfi, hfo, hnone]
  · simp [Table.without, hfd, Table.override, h.outside fd hfd]

end Plumbed

/-- The table that the program of a stage starts with: its input and output are the files of its
redirections, or else the ends of these pipes. -/
def Table.wired (base : Table) (slots : Slots) (input output : Option Nat) : Table := fun fd =>
  if fd = .input then slots.input.file?.or ((input.map .readEnd).or (base fd))
  else if fd = .output then slots.output.file?.or ((output.map .writeEnd).or (base fd))
  else base fd

theorem Table.wired_eq (base : Table) (slots : Slots) (input output : Option Nat) :
    ((((base.override .input (input.map .readEnd)).override .output
      (output.map .writeEnd)).override .input slots.input.file?).override .output
        slots.output.file?) = base.wired slots input output := by
  have hne : Descriptor.output ≠ Descriptor.input := by decide
  funext fd
  by_cases hi : fd = .input
  · simp [hi, override, wired, hne.symm]
  · by_cases ho : fd = .output <;> simp [ho, hi, override, wired, hne]

/-! ## Children -/

namespace Child

open TinyShell.Action (trace)

variable {host : Host σ} {table : σ → Table} (h : host.Keeps table) (bound : Nat)

/-- A program is started, or could not be. -/
theorem become_executes (host : Host σ) {command : SimpleCommand} (hne : command.argv ≠ [])
    (state : σ) : (trace host bound (become command) state).Executes fun execution =>
      command.name? = some execution.program ∧ execution.argv = command.argv ∧
        execution.before = state := by
  intro _
  obtain ⟨name, rest, hargv⟩ := List.exists_cons_of_ne_nil hne
  have hname : command.name? = some name := by rw [SimpleCommand.name?, hargv]; rfl
  simp only [become, hname, Option.getD_some]
  rcases he : host.exec name command.argv state with ⟨errno | status, state'⟩
  · rw [Action.trace_exec_error he]
    exact ⟨⟨state, name, command.argv, .error errno⟩, rfl, rfl, rfl, rfl⟩
  · rw [Action.trace_exec_ok he]
    exact ⟨⟨state, name, command.argv, .ok status⟩, rfl, rfl, rfl, rfl⟩

include h

/-- The child of a stage comes to its program, with its own ends in their places and all pipes
closed. -/
theorem ofStage_executes {base : Table} {pipes : List Pipe} {ids : List Nat} {state : σ}
    (hp : Plumbed base pipes ids (table state)) (hin : base .input ≠ none)
    (hout : base .output ≠ none) {before after : Option Pipe} {input output : Option Nat}
    (hb : (before.map fun pipe => table state pipe.readEnd) =
      input.map fun id => some (.readEnd id))
    (ha : (after.map fun pipe => table state pipe.writeEnd) =
      output.map fun id => some (.writeEnd id))
    (ham : ∀ pipe ∈ after, pipe ∈ pipes) {stage : SimpleCommand} (hs : stage.slots.Shaped)
    (hne : stage.argv ≠ []) :
    (trace host bound (ofStage pipes before after stage) state).Executes fun execution =>
      stage.name? = some execution.program ∧ execution.argv = stage.argv ∧
        table execution.before = base.wired stage.slots input output := by
  rw [ofStage, Action.trace_bind]
  have hread : (before.map Pipe.readEnd).map (table state) = (input.map .readEnd).map some := by
    simpa [Function.comp_def] using hb
  refine (wire_leaves h bound hread .input).executes fun state₁ ht₁ => ?_
  rw [Action.trace_bind]
  -- the write end was free before there were pipes, so it is not the descriptor just replaced
  have hwrite : (after.map Pipe.writeEnd).map (table state₁) =
      (output.map .writeEnd).map some := by
    have hsame : ((after.map Pipe.writeEnd).map (table state₁)) =
        after.map fun pipe => table state pipe.writeEnd := by
      rcases after with _ | pipe
      · rfl
      · have hfree : base pipe.writeEnd = none :=
          hp.free _ (List.mem_flatMap.2 ⟨pipe, ham pipe rfl, by simp⟩)
        have : pipe.writeEnd ≠ .input := by
          intro he
          exact hin (he ▸ hfree)
        simp [ht₁, this]
    rw [hsame, ha]
    simp [Function.comp_def]
  refine (wire_leaves h bound hwrite .output).executes fun state₂ ht₂ => ?_
  rw [Action.trace_bind]
  refine (closePipes_leaves h bound pipes state₂).executes fun state₃ ht₃ => ?_
  rw [ht₂, ht₁, hp.closed hin hout] at ht₃
  rw [Action.trace_bind]
  refine (applySlots_leaves h bound hs state₃).executes fun state₄ ht₄ => ?_
  rw [ht₃, Table.wired_eq] at ht₄
  have : stage.isEmpty = false := by simpa [SimpleCommand.isEmpty] using hne
  simp only [this, Bool.false_eq_true, if_false]
  intro hg
  obtain ⟨execution, he, hname, hargv, hbefore⟩ := become_executes bound host hne state₄ hg
  exact ⟨execution, he, hname, hargv, hbefore ▸ ht₄⟩

end Child

/-! ## The shell -/

namespace Job

open TinyShell.Action (trace)

variable {host : Host σ} {table : σ → Table} (h : host.Keeps table) (bound : Nat)

include h

theorem makePipes_plumbed (count : Nat) (state : σ)
    (hg : (trace host bound (makePipes count) state).Granted) :
    ∃ pipes ids state', (trace host bound (makePipes count) state).result =
      some (.returned (pipes, none), state') ∧ Plumbed (table state) pipes ids (table state') := by
  induction count generalizing state with
  | zero => exact ⟨[], [], state, rfl, .nil _⟩
  | succ count ih =>
    rw [makePipes, Action.trace_call_bind] at hg ⊢
    obtain ⟨hm, hg⟩ := hg.of_after
    have ha := h.answer .pipe state
    rcases hr : host.answer .pipe state with ⟨errno | pipe, state₁⟩
    · rw [hr] at hm
      exact absurd (hm _ List.mem_cons_self) Bool.false_ne_true
    · rw [hr] at ha hg
      obtain ⟨hfits, id, hid, ht⟩ := ha
      simp only at hg ⊢
      rw [Action.trace_bind] at hg ⊢
      obtain ⟨pipes, ids, state₂, hrest, hp⟩ := ih state₁ hg.of_bind
      rw [ht] at hp
      refine ⟨pipe :: pipes, id :: ids, state₂, ?_, .cons hfits hid hp⟩
      rw [Run.after_result, Run.bind_of_returned hrest]
      rfl

/-- Starting children leaves the table as it is, and each starts with a copy of it. -/
theorem spawnStages_rests (pipes : List Pipe) (before : Option Pipe) (after : List Pipe)
    (stages : List SimpleCommand) (state : σ) :
    (trace host bound (spawnStages pipes before after stages) state).Returns
      fun moves _ state' => table state' = table state ∧
        ∀ fork ∈ (Ledger.of moves).forks, table fork.before = table state := by
  induction stages generalizing before after state with
  | nil => exact .pure ⟨rfl, by simp⟩
  | cons stage rest ih =>
    rw [spawnStages, Action.fork, Behavior.spawn_bind]
    have ht := h.fork state
    rcases hf : host.fork state with ⟨errno | pid, state₁⟩
    · rw [hf] at ht
      have hreport := h.answer (.report .system ("fork failed: " ++ errno.text)) state₁
      rw [Action.trace_spawn_error hf]
      refine .after ⟨_, _, rfl, hreport.trans ht, fun fork hm => ?_⟩
      obtain rfl : fork = ⟨state, .error errno, []⟩ := List.mem_singleton.1 hm
      rfl
    · have hends := (Child.ofStage_offhand pipes before after.head? stage).loopless.isSome
        host bound state₁
      obtain ⟨⟨ending, child⟩, hc⟩ := Option.isSome_iff_exists.1 hends
      rw [hf] at ht
      have hjoin : table (host.join state₁ child pid ending.status) = table state :=
        (h.join state₁ child pid ending.status).trans ht
      rw [Action.trace_spawn_ok hf hc, Behavior.done_bind, Action.trace_bind]
      refine .after (.bind (ih after.head? after.tail _) ?_)
      rintro moves made state₂ ⟨ht₂, hforks⟩
      rw [hjoin] at ht₂ hforks
      refine .pure ⟨ht₂, ?_⟩
      simpa [Ledger.of_cons, Ledger.entry] using hforks

end Job

/-! ## The whole pipeline -/

/-- The child came to the program of a stage, which is the `i`-th, with the table that is asked for,
and with no other end of a pipe. -/
def Fork.Starts (fork : Fork σ) (table : σ → Table) (base : Table) (ids : List Nat) (i : Nat)
    (stage : SimpleCommand) : Prop :=
  ∃ execution, (Ledger.of fork.child).executions = [execution] ∧
    stage.name? = some execution.program ∧ execution.argv = stage.argv ∧
    table execution.before = base.wired stage.slots (idBefore ids i) ids[i]? ∧
    ∀ fd, fd ≠ .input → fd ≠ .output → ∀ id ∈ ids,
      table execution.before fd ≠ some (.readEnd id) ∧
        table execution.before fd ≠ some (.writeEnd id)

/-- The wiring of a pipeline in a run of the shell from a table, with the numbers of its pipes. -/
structure Wired (table : σ → Table) (base : Table) (pipeline : Pipeline) (ids : List Nat)
    (run : Run σ (Status × Shell)) : Prop where
  length : ids.length + 1 = pipeline.length
  nodup : ids.Nodup
  fresh : ∀ id ∈ ids, base.Lacks id
  started : (Ledger.of run.moves).forks.length = pipeline.length
  /-- A child whose own calls were granted comes to its program. -/
  program : ∀ (i : Nat) fork stage, (Ledger.of run.moves).forks[i]? = some fork →
    pipeline.stages[i]? = some stage → stage.argv ≠ [] → (∀ move ∈ fork.child, move.granted) →
    fork.Starts table base ids i stage
  /-- The shell has its own table again before it waits, and keeps it to its end. -/
  parent : ∃ wiring rest, run.moves = wiring ++ rest ∧ (Ledger.of wiring).waits = [] ∧
    (∀ move ∈ rest, table move.before = base) ∧
    ∀ ending after, run.result = some (ending, after) → table after = base

namespace Job

open TinyShell.Action (trace)

variable {host : Host σ} {table : σ → Table} (h : host.Keeps table) (bound : Nat) (shell : Shell)
  {pipeline : Pipeline}

/-- No child was refused, so none is missing. -/
theorem Staged.length {pipes : List Pipe} {before : Option Pipe} {after : List Pipe}
    {stages : List SimpleCommand} {forks : List (Fork σ)} {pids : List Pid}
    {failure : Option Errno}
    (hst : Staged host bound pipes before after stages forks pids failure)
    (hok : ∀ fork ∈ forks, fork.result.isOk) : forks.length = stages.length := by
  rcases failure with _ | errno
  · have hres := congrArg List.length hst.results
    simp only [List.length_map, List.length_append, Option.map_none, Option.toList_none,
      List.length_nil] at hres
    exact hres.trans (hst.complete rfl)
  · have hmem : Except.error errno ∈ forks.map Fork.result := by simp [hst.results]
    obtain ⟨fork, hm, hr⟩ := List.mem_map.1 hmem
    have := hok fork hm
    rw [hr] at this
    cases this

include h

/-- Each child starts with the pipes, so it comes to its program as the child of its stage does. -/
theorem Staged.starts {base : Table} {pipes : List Pipe} {ids : List Nat} {state : σ}
    {stages : List SimpleCommand} {forks : List (Fork σ)} {pids : List Pid}
    {failure : Option Errno}
    (hst : Staged host bound pipes none pipes stages forks pids failure)
    (hp : Plumbed base pipes ids (table state)) (hin : base .input ≠ none)
    (hout : base .output ≠ none) (hslots : ∀ stage ∈ stages, stage.slots.Shaped)
    (hforks : ∀ fork ∈ forks, table fork.before = table state) {i : Nat} {fork : Fork σ}
    {stage : SimpleCommand} (hi : forks[i]? = some fork) (hstage : stages[i]? = some stage)
    (hok : fork.result.isOk) (hne : stage.argv ≠ []) (hg : ∀ move ∈ fork.child, move.granted) :
    fork.Starts table base ids i stage := by
  obtain ⟨pid, hpid⟩ : ∃ pid, fork.result = .ok pid := by
    rcases hr : fork.result with errno | pid
    · rw [hr] at hok
      cases hok
    · exact ⟨pid, rfl⟩
  obtain ⟨stage', hstage', hchild⟩ := hst.child i fork pid hi hpid
  obtain rfl : stage' = stage := by simpa [hstage'] using hstage
  have htable : table (host.fork fork.before).2 = table state :=
    (h.fork fork.before).trans (hforks fork (List.mem_of_getElem? hi))
  rw [hchild] at hg
  rw [← htable] at hp
  obtain ⟨execution, he, hname, hargv, hbefore⟩ := Child.ofStage_executes h bound hp hin hout
    (hp.read_before i) (hp.write_after i) (fun pipe hm => List.mem_of_getElem? hm)
    (hslots _ (List.mem_of_getElem? hstage)) hne hg
  refine ⟨execution, by rw [hchild, he], hname, hargv, hbefore, fun fd hfi hfo id hid => ?_⟩
  have : table execution.before fd = base fd := by simp [hbefore, Table.wired, hfi, hfo]
  rw [this]
  exact hp.fresh id hid fd

/-- The stages of a pipeline, from the table that has its pipes. -/
theorem runStages_wired {base : Table} {pipes : List Pipe} {ids : List Nat} {state : σ}
    (hp : Plumbed base pipes ids (table state)) (hin : base .input ≠ none)
    (hout : base .output ≠ none) (hslots : ∀ stage ∈ pipeline.stages, stage.slots.Shaped)
    (hlen : pipes.length + 1 = pipeline.length) {piping : List (Move σ)}
    (hl : Ledger.of piping = { pipes := pipes.map .ok })
    (hg : (trace host bound (runStages shell pipeline pipes) state).Granted) :
    Wired table base pipeline ids
      ((trace host bound (runStages shell pipeline pipes) state).after piping) := by
  obtain ⟨spawning, ⟨pids, failed⟩, state₁, hs, ⟨forks, failure, hls, -, hst⟩, ht₁, hforks⟩ :=
    ((spawnStages_returns host bound pipes none pipes pipeline.stages state).and
      (spawnStages_rests h bound pipes none pipes pipeline.stages state)).elim
  rw [hls] at hforks
  obtain ⟨closing, _, state₂, hc, hlc⟩ := (Child.closePipes_returns host bound pipes state₁).elim
  rw [trace_runStages host bound shell hs hc] at hg ⊢
  obtain ⟨hwiring, -⟩ := hg.of_after
  obtain ⟨hspawned, hclosed⟩ := List.forall_mem_append.1 hwiring
  have hok := Ledger.forks_granted hspawned
  rw [hls] at hok
  have hbase : table state₂ = base := by
    have hleaves := Child.closePipes_leaves h bound pipes state₁
    rw [hc] at hleaves
    obtain ⟨-, state', hr, ht₂⟩ := hleaves hclosed
    obtain rfl : state₂ = state' := by simpa using hr
    have hends := hp.closed hin hout none none
    simp only [Table.override_none] at hends
    rw [ht₂, ht₁, hends]
  have hrest := (conclude_still shell pipeline pids failed).rests h bound hbase
  obtain ⟨waits, hlw⟩ := conclude_ledger host bound shell pipeline pids failed state₂
  rw [Run.after_after]
  have hall : (Ledger.of ((trace host bound (conclude shell pipeline pids failed) state₂).after
      (piping ++ (spawning ++ closing))).moves).forks = forks := by
    simp [hl, hls, hlc, hlw]
  refine ⟨by rw [hp.length, hlen], hp.nodup, hp.fresh, ?_, fun i fork stage hi hstage => ?_, ?_⟩
  · rw [hall]
    exact hst.length bound hok
  · rw [hall] at hi
    exact hst.starts h bound hp hin hout hslots hforks hi hstage
      (hok fork (List.mem_of_getElem? hi))
  · exact ⟨piping ++ (spawning ++ closing), _, rfl, by simp [hl, hls, hlc], hrest.moves,
      hrest.result⟩

/-- If no call is refused, each program of a pipeline starts between the pipes on its sides, or with
the files that it is redirected to, and nobody else keeps an end of a pipe. -/
theorem runPipeline_wired {state : σ} (hne : pipeline.stages ≠ [])
    (hslots : ∀ stage ∈ pipeline.stages, stage.slots.Shaped)
    (hin : table state .input ≠ none) (hout : table state .output ≠ none)
    (hg : (trace host bound (runPipeline shell pipeline) state).Granted) :
    ∃ ids, Wired table (table state) pipeline ids
      (trace host bound (runPipeline shell pipeline) state) := by
  rw [runPipeline_eq hne, Action.trace_bind] at hg ⊢
  obtain ⟨pipes, ids, state₁, hr, hp⟩ := makePipes_plumbed h bound _ state hg.of_bind
  obtain ⟨piping, made, state', hm, hl, hlen⟩ :=
    (makePipes_returns host bound (pipeline.length - 1) state).elim
  obtain ⟨rfl, rfl⟩ : (pipes, none) = made ∧ state₁ = state' := by simpa [hm] using hr.symm
  rw [hm, Run.bind_of_returned rfl] at hg ⊢
  have hlen : pipes.length + 1 = pipeline.length := by
    have : 0 < pipeline.length := List.length_pos_iff.2 hne
    have := hlen rfl
    simp only at this
    omega
  exact ⟨ids, runStages_wired h bound shell hp hin hout hslots hlen (by simpa using hl)
    hg.of_after.2⟩

omit h in
/-- Three stages, of which the first reads a file and the last appends to one. -/
theorem runPipeline_wired_desk :
    let pipeline : Pipeline := ⟨[⟨["cat"], { input := .toPath 0 .input "in" }, ∅, false⟩,
      ⟨["sort", "-n"], {}, ∅, false⟩,
      ⟨["wc"], { output := .toPath 1 .append "out" }, ∅, false⟩], ∅⟩
    let desk : Desk := ⟨List.toAList [⟨0, .other 0⟩, ⟨1, .other 1⟩, ⟨3, .other 2⟩]⟩
    let run := Action.trace Desk.host 0 (runPipeline {} pipeline) desk
    Desk.host.Keeps Desk.table ∧ pipeline.stages ≠ [] ∧
      (∀ stage ∈ pipeline.stages, stage.slots.Shaped) ∧ desk.table .input ≠ none ∧
      desk.table .output ≠ none ∧ run.Granted ∧
      ∃ ids, Wired Desk.table desk.table pipeline ids run := by
  intro pipeline desk run
  have hslots : ∀ stage ∈ pipeline.stages, stage.slots.Shaped := by
    have hnone := SimpleCommand.slots_none_shaped
    intro stage hs
    simp only [pipeline, List.mem_cons, List.not_mem_nil, or_false] at hs
    rcases hs with rfl | rfl | rfl
    · exact SimpleCommand.redirect_shaped hnone .input "in"
    · exact hnone
    · exact SimpleCommand.redirect_shaped hnone .append "out"
  have hg : run.Granted := by
    have : run.moves.all Move.granted = true := by decide +kernel
    exact List.all_eq_true.1 this
  exact ⟨Desk.host_keeps, by simp [pipeline], hslots, by decide, by decide, hg,
    runPipeline_wired Desk.host_keeps 0 {} (by simp [pipeline]) hslots (by decide) (by decide) hg⟩

end Job

end TinyShell
