import TinyShell.Proofs.Shell.Wiring

/-!
# Pipelines on closed standard descriptors

A shell that has its own input or output closed may get number 0 or 1 for an end of a pipe. A child
then finds such an end in the place of its input or output, or in the way of it, and afterwards
closes the ends of all pipes by their numbers, the one that it has just put in place among them.

`Job.runPipeline_crossed` says what the program of each stage finds then, on any table, and so which
stages come to their pipes all the same: one reads the pipe before it exactly if no pipe has number
0, and writes the one after it exactly if no pipe has number 1 and the end that it writes was not
replaced by its input (`Crossed.reads`, `Crossed.writes`). `Job.runPipeline_crossed_second` is the
smallest pipeline in which a stage does not.
-/

namespace TinyShell

variable {σ : Type}

/-- The end of the pipe after a stage, as it is found once the input of the stage is in place: what
had the number of the input is gone. -/
def endAfter (pipes : List Pipe) (ids : List Nat) (i : Nat) : Option OpenFile :=
  pipes[i]?.bind fun pipe =>
    if pipe.writeEnd = .input then ((idBefore ids i).map .readEnd).or (ids[i]?.map .writeEnd)
    else ids[i]?.map .writeEnd

namespace Table

/-- The table that the program of a stage starts with, if it has no redirections: the ends of the
pipes on its sides are put in the place of its input and output, and then all that has the number
of an end of a pipe is closed. -/
def crossed (base : Table) (pipes : List Pipe) (ids : List Nat) (i : Nat) : Table :=
  ((base.override .input ((idBefore ids i).map .readEnd)).override .output
    (endAfter pipes ids i)).without (Pipe.ends pipes)

variable (base : Table) {pipes : List Pipe} {ids : List Nat} {i id : Nat}

theorem crossed_of_mem {fd : Descriptor} (h : fd ∈ Pipe.ends pipes) :
    base.crossed pipes ids i fd = none := if_pos h

theorem crossed_of_notMem {fd : Descriptor} (h : fd ∉ Pipe.ends pipes) :
    base.crossed pipes ids i fd =
      (base.override .input ((idBefore ids i).map .readEnd)).override .output
        (endAfter pipes ids i) fd := if_neg h

/-- A stage reads the pipe before it unless some pipe has the number of the input. -/
theorem crossed_input (hid : idBefore ids i = some id) :
    base.crossed pipes ids i .input = some (.readEnd id) ↔ .input ∉ Pipe.ends pipes := by
  have hne : Descriptor.input ≠ Descriptor.output := by decide
  by_cases hm : .input ∈ Pipe.ends pipes
  · simp [base.crossed_of_mem hm, hm]
  · simp [base.crossed_of_notMem hm, hm, hne, hid, override]

/-- A stage writes the pipe after it unless some pipe has the number of the output, or the end that
it writes had the number of its input and made room for it. -/
theorem crossed_output {pipe : Pipe} (hp : pipes[i]? = some pipe) (hid : ids[i]? = some id) :
    base.crossed pipes ids i .output = some (.writeEnd id) ↔
      .output ∉ Pipe.ends pipes ∧ ¬(0 < i ∧ pipe.writeEnd = .input) := by
  by_cases hm : .output ∈ Pipe.ends pipes
  · simp [base.crossed_of_mem hm, hm]
  have hfound : base.crossed pipes ids i .output = (endAfter pipes ids i).or (base .output) := by
    rw [base.crossed_of_notMem hm, override, if_pos rfl, override_other _ _ (by decide)]
  rw [hfound, endAfter, hp, Option.bind_some, hid]
  by_cases hw : pipe.writeEnd = .input
  · rcases i with _ | i
    · simp [hw, hm, idBefore]
    · -- the input of the stage is the pipe before it, which is another one
      obtain ⟨hlt, -⟩ := List.getElem?_eq_some_iff.1 hid
      have hbefore : idBefore ids (i + 1) = some ids[i] := List.getElem?_eq_getElem _
      simp [hw, hbefore]
  · simp [hw, hm]

end Table

namespace Plumbed

variable {base table : Table} {pipes : List Pipe} {ids : List Nat}

/-- The write end of a stage, after something was put in the place of the input. -/
theorem write_after_input (h : Plumbed base pipes ids table) (i : Nat) :
    ((pipes[i]?.map Pipe.writeEnd).map
        (table.override .input ((idBefore ids i).map .readEnd))) =
      (endAfter pipes ids i).map some := by
  have hwrite := h.write_after i
  rcases hp : pipes[i]? with _ | pipe
  · simp [endAfter, hp]
  obtain ⟨id, hid, hfile⟩ : ∃ id, ids[i]? = some id ∧
      table pipe.writeEnd = some (.writeEnd id) := by
    rw [hp] at hwrite
    rcases hid : ids[i]? with _ | id <;> simp_all
  by_cases hw : pipe.writeEnd = .input
  · rw [hw] at hfile
    rcases hb : idBefore ids i with _ | other <;>
      simp [endAfter, Table.override, hp, hid, hw, hb, hfile]
  · simp [endAfter, hp, hid, hw, hfile]

/-- What a stage is left with once it has closed all pipes. -/
theorem crossed (h : Plumbed base pipes ids table) (i : Nat) :
    ((table.override .input ((idBefore ids i).map .readEnd)).override .output
      (endAfter pipes ids i)).without (Pipe.ends pipes) = base.crossed pipes ids i := by
  funext fd
  by_cases hm : fd ∈ Pipe.ends pipes
  · simp [Table.crossed, Table.without, hm]
  · simp [Table.crossed, Table.without, hm, Table.override, h.outside fd hm]

end Plumbed

/-- No redirection is set. -/
def Slots.Unset (slots : Slots) : Prop := ∀ slot ∈ slots.toList, ¬slot.isSet

theorem Child.applySlots_unset {slots : Slots} (h : slots.Unset) :
    applySlots slots = return .ok () := by
  rw [applySlots, List.filter_eq_nil_iff.2 h]
  rfl

namespace Child

open TinyShell.Action (trace)

variable {host : Host σ} {table : σ → Table} (h : host.Keeps table) (bound : Nat)

include h

/-- The child of a stage comes to its program, whatever numbers the pipes have. -/
theorem ofStage_crosses {base : Table} {pipes : List Pipe} {ids : List Nat} {state : σ}
    (hp : Plumbed base pipes ids (table state)) (i : Nat) {stage : SimpleCommand}
    (hs : stage.slots.Unset) (hne : stage.argv ≠ []) :
    (trace host bound (ofStage pipes (Job.pipeBefore none pipes i) pipes[i]? stage)
      state).Executes fun execution =>
        stage.name? = some execution.program ∧ execution.argv = stage.argv ∧
          table execution.before = base.crossed pipes ids i := by
  have hread : ((Job.pipeBefore none pipes i).map Pipe.readEnd).map (table state) =
      ((idBefore ids i).map .readEnd).map some := by
    simpa [Function.comp_def] using hp.read_before i
  rw [ofStage, Action.trace_bind]
  refine (wire_leaves h bound hread .input).executes fun state₁ ht₁ => ?_
  rw [Action.trace_bind]
  have hwrite := hp.write_after_input i
  rw [← ht₁] at hwrite
  refine (wire_leaves h bound hwrite .output).executes fun state₂ ht₂ => ?_
  rw [Action.trace_bind]
  refine (closePipes_leaves h bound pipes state₂).executes fun state₃ ht₃ => ?_
  rw [ht₂, ht₁, hp.crossed] at ht₃
  have hwords : stage.isEmpty = false := by simpa [SimpleCommand.isEmpty] using hne
  simp only [applySlots_unset hs, Behavior.pure_eq_done, Behavior.done_bind, hwords,
    Bool.false_eq_true, if_false]
  intro hg
  obtain ⟨execution, he, hname, hargv, hbefore⟩ := become_executes bound host hne state₃ hg
  exact ⟨execution, he, hname, hargv, hbefore ▸ ht₃⟩

end Child

/-- The child came to the program of the `i`-th stage of a pipeline. -/
structure Fork.Crosses (fork : Fork σ) (table : σ → Table) (base : Table) (pipes : List Pipe)
    (ids : List Nat) (i : Nat) (stage : SimpleCommand) (execution : Execution σ) : Prop where
  only : (Ledger.of fork.child).executions = [execution]
  name : stage.name? = some execution.program
  argv : execution.argv = stage.argv
  start : table execution.before = base.crossed pipes ids i
  /-- A stage with a pipe before it reads that pipe unless a pipe has the number of the input. -/
  reads : ∀ id, idBefore ids i = some id →
    (table execution.before .input = some (.readEnd id) ↔ .input ∉ Pipe.ends pipes)
  /-- A stage with a pipe after it writes that pipe unless a pipe has the number of the output, or
  that very end had the number of the input, which the stage has from a pipe, too. -/
  writes : ∀ pipe id, pipes[i]? = some pipe → ids[i]? = some id →
    (table execution.before .output = some (.writeEnd id) ↔
      .output ∉ Pipe.ends pipes ∧ ¬(0 < i ∧ pipe.writeEnd = .input))

/-- The wiring of a pipeline in a run of the shell from any table. -/
structure Crossed (table : σ → Table) (base : Table) (pipeline : Pipeline) (pipes : List Pipe)
    (ids : List Nat) (run : Run σ (Status × Shell)) : Prop where
  pipes_length : pipes.length + 1 = pipeline.length
  ids_length : ids.length = pipes.length
  made : (Ledger.of run.moves).pipes = pipes.map .ok
  nodup : ids.Nodup
  fresh : ∀ id ∈ ids, base.Lacks id
  started : (Ledger.of run.moves).forks.length = pipeline.length
  /-- A child whose own calls were granted comes to its program. -/
  program : ∀ (i : Nat) fork stage, (Ledger.of run.moves).forks[i]? = some fork →
    pipeline.stages[i]? = some stage → stage.argv ≠ [] → (∀ move ∈ fork.child, move.granted) →
    ∃ execution, fork.Crosses table base pipes ids i stage execution

namespace Job

open TinyShell.Action (trace)

variable {host : Host σ} {table : σ → Table} (h : host.Keeps table) (bound : Nat) (shell : Shell)
  {pipeline : Pipeline}

include h

/-- A pipeline that was granted all its calls has all its pipes and children, and each child starts
with the pipes. -/
theorem runPipeline_staged {state : σ} (hne : pipeline.stages ≠ [])
    (hg : (trace host bound (runPipeline shell pipeline) state).Granted) :
    ∃ (pipes : List Pipe) (ids : List Nat) (plumbed : Table) (pids : List Pid)
      (failure : Option Errno),
      let ledger := Ledger.of (trace host bound (runPipeline shell pipeline) state).moves
      Plumbed (table state) pipes ids plumbed ∧ pipes.length + 1 = pipeline.length ∧
        ledger.pipes = pipes.map .ok ∧
        Staged host bound pipes none pipes pipeline.stages ledger.forks pids failure ∧
        ∀ fork ∈ ledger.forks, table fork.before = plumbed := by
  have hrun := congrArg (fun action => trace host bound action state) (@runPipeline_eq shell _ hne)
  simp only [Action.trace_bind] at hrun
  rw [hrun] at hg
  obtain ⟨pipes, ids, state₁, hr, hp⟩ := makePipes_plumbed h bound _ state hg.of_bind
  obtain ⟨piping, made, state', hm, hl, hlen⟩ :=
    (makePipes_returns host bound (pipeline.length - 1) state).elim
  obtain ⟨rfl, rfl⟩ : (pipes, none) = made ∧ state₁ = state' := by simpa [hm] using hr.symm
  have hlen : pipes.length + 1 = pipeline.length := by
    have : 0 < pipeline.length := List.length_pos_iff.2 hne
    have := hlen rfl
    simp only at this
    omega
  obtain ⟨spawning, ⟨pids, failed⟩, state₂, hs, ⟨forks, failure, hls, -, hst⟩, -, hforks⟩ :=
    ((spawnStages_returns host bound pipes none pipes pipeline.stages state₁).and
      (spawnStages_rests h bound pipes none pipes pipeline.stages state₁)).elim
  obtain ⟨closing, _, state₃, hc, hlc⟩ := (Child.closePipes_returns host bound pipes state₂).elim
  obtain ⟨waits, hlw⟩ := conclude_ledger host bound shell pipeline pids failed state₃
  have hledger : Ledger.of (trace host bound (runPipeline shell pipeline) state).moves =
      { pipes := pipes.map .ok, forks, closed := Pipe.ends pipes, waits } := by
    rw [hrun, hm, Run.bind_of_returned rfl, trace_runStages host bound shell hs hc]
    simp [hl, hls, hlc, hlw]
  rw [hls] at hforks
  rw [hledger]
  exact ⟨pipes, ids, table state₁, pids, failure, hp, hlen, rfl, hst, hforks⟩

/-- If no call is refused, this is what the programs of a pipeline find, on whatever table the shell
has: also if its own input or output is closed, so that pipes get their numbers. -/
theorem runPipeline_crossed {state : σ} (hne : pipeline.stages ≠ [])
    (hunset : ∀ stage ∈ pipeline.stages, stage.slots.Unset)
    (hg : (trace host bound (runPipeline shell pipeline) state).Granted) :
    ∃ pipes ids, Crossed table (table state) pipeline pipes ids
      (trace host bound (runPipeline shell pipeline) state) := by
  obtain ⟨pipes, ids, plumbed, pids, failure, hp, hlen, hmade, hst, hforks⟩ :=
    runPipeline_staged h bound shell hne hg
  have hok := Ledger.forks_granted hg
  refine ⟨pipes, ids, hlen, hp.length, hmade, hp.nodup, hp.fresh, hst.length bound hok, ?_⟩
  intro i fork stage hi hstage hwords hgc
  obtain ⟨pid, hpid⟩ : ∃ pid, fork.result = .ok pid := by
    have := hok fork (List.mem_of_getElem? hi)
    rcases hr : fork.result with errno | pid
    · rw [hr] at this
      cases this
    · exact ⟨pid, rfl⟩
  obtain ⟨stage', hstage', hchild⟩ := hst.child i fork pid hi hpid
  obtain rfl : stage' = stage := by simpa [hstage'] using hstage
  have htable : table (host.fork fork.before).2 = plumbed :=
    (h.fork fork.before).trans (hforks fork (List.mem_of_getElem? hi))
  rw [← htable] at hp
  rw [hchild] at hgc
  obtain ⟨execution, he, hname, hargv, hstart⟩ := Child.ofStage_crosses h bound hp i
    (hunset _ (List.mem_of_getElem? hstage)) hwords hgc
  refine ⟨execution, by rw [hchild, he], hname, hargv, hstart, fun id hid => ?_,
    fun pipe id hpipe hid => ?_⟩
  · rw [hstart, Table.crossed_input _ hid]
  · rw [hstart, Table.crossed_output _ hpipe hid]

omit h in
/-- Three stages in a shell with neither input nor output, so that the first pipe is 0 and 1. -/
theorem runPipeline_crossed_desk :
    let pipeline : Pipeline :=
      ⟨[⟨["cat"], {}, ∅, false⟩, ⟨["sort", "-n"], {}, ∅, false⟩, ⟨["wc"], {}, ∅, false⟩], ∅⟩
    let desk : Desk := ⟨List.toAList [⟨2, .other 2⟩]⟩
    let run := trace Desk.host 0 (runPipeline {} pipeline) desk
    Desk.host.Keeps Desk.table ∧ pipeline.stages ≠ [] ∧
      (∀ stage ∈ pipeline.stages, stage.slots.Unset) ∧ run.Granted ∧
      ∃ pipes ids, Crossed Desk.table desk.table pipeline pipes ids run := by
  intro pipeline desk run
  have hunset : ∀ stage ∈ pipeline.stages, stage.slots.Unset := by
    intro stage hs slot
    simp only [pipeline, List.mem_cons, List.not_mem_nil, or_false] at hs
    rcases hs with rfl | rfl | rfl <;> revert slot <;> decide
  have hg : run.Granted := by
    have : run.moves.all Move.granted = true := by decide +kernel
    exact List.all_eq_true.1 this
  exact ⟨Desk.host_keeps, by simp [pipeline], hunset, hg,
    runPipeline_crossed Desk.host_keeps 0 {} (by simp [pipeline]) hunset hg⟩

omit h in
/-- In a shell whose input is closed, the read end of the pipe of two stages has the number of the
input. The second stage finds it in its place, closes it with all other ends of pipes, and so
comes to its program without input, although no call is refused. -/
theorem runPipeline_crossed_second :
    let pipeline : Pipeline := ⟨[⟨["a"], {}, ∅, false⟩, ⟨["b"], {}, ∅, false⟩], ∅⟩
    let desk : Desk := ⟨List.toAList [⟨1, .other 1⟩, ⟨2, .other 2⟩]⟩
    let run := trace Desk.host 0 (runPipeline {} pipeline) desk
    Desk.host.Keeps Desk.table ∧ desk.table .input = none ∧
      (∀ stage ∈ pipeline.stages, stage.slots.Unset) ∧ run.Granted ∧
      (Ledger.of run.moves).pipes = [.ok ⟨0, 3⟩] ∧
      ∃ fork execution, (Ledger.of run.moves).forks[1]? = some fork ∧
        (∀ move ∈ fork.child, move.granted) ∧ (Ledger.of fork.child).executions = [execution] ∧
        execution.argv = ["b"] ∧ Desk.table execution.before .input = none := by
  intro pipeline desk run
  have hunset : ∀ stage ∈ pipeline.stages, stage.slots.Unset := by
    intro stage hs slot
    simp only [pipeline, List.mem_cons, List.not_mem_nil, or_false] at hs
    rcases hs with rfl | rfl <;> revert slot <;> decide
  have hgranted : run.moves.all Move.granted = true := by decide +kernel
  have hpipes : (Ledger.of run.moves).pipes = [.ok ⟨0, 3⟩] := by decide +kernel
  have hsecond : ((Ledger.of run.moves).forks[1]?.map fun fork =>
      (fork.child.all Move.granted, (Ledger.of fork.child).executions.map fun execution =>
        (execution.argv, execution.before.table .input))) = some (true, [(["b"], none)]) := by
    decide +kernel
  obtain ⟨fork, hfork, hfound⟩ := Option.map_eq_some_iff.1 hsecond
  obtain ⟨hchild, hexecutions⟩ := Prod.mk.inj hfound
  obtain ⟨execution, honly, hexecution⟩ := List.map_eq_singleton_iff.1 hexecutions
  obtain ⟨hargv, hinput⟩ := Prod.mk.inj hexecution
  exact ⟨Desk.host_keeps, by decide, hunset, List.all_eq_true.1 hgranted, hpipes, fork, execution,
    hfork, List.all_eq_true.1 hchild, honly, hargv, hinput⟩

end Job

end TinyShell
