import TinyShell.Proofs.Shell.Preparation
import TinyShell.Rehearsal.Script

/-!
# A pipeline of one stage

`Job.run_pipeline_alone`: a pipeline of one stage is its command. The two are run by code of their
own, each with its own child, its own way to announce or await it and its own answer if there is
none; here they are shown to be the same action, up to the line that a command that stands alone has
in the journal. So nothing that the system answers can tell them apart.

The children agree because there is no pipe to wire or to close (`Child.ofStage_alone`), and what
the shell does after them agrees for a child that was started (`conclude_single`) and for one that
was not (`conclude_none`).
-/

namespace TinyShell

/-- Between no pipes, a stage with words is prepared as a command that stands alone. -/
theorem Child.ofStage_alone {command : SimpleCommand} (hne : command.argv ≠ []) :
    ofStage [] none none command = ofCommand command := by
  have hwords : command.isEmpty = false := by simpa [SimpleCommand.isEmpty] using hne
  simp only [ofStage, ofCommand, Option.map_none, wire, closePipes, hwords, Bool.false_eq_true,
    if_false, Behavior.pure_eq_done, Behavior.done_bind]

namespace Job

open TinyShell.Action (trace)

variable (shell : Shell) {command : SimpleCommand} (hne : command.argv ≠ []) (faults : Faults)

/-- A pipeline that could not start its first stage has nobody to wait for. -/
theorem conclude_none (pipeline : Pipeline) :
    conclude shell pipeline [] true = return (notStarted, shell) := by
  simp [conclude, waitForAll]

include hne

/-- The only stage of a pipeline is a child as of a command that stands alone. -/
theorem spawnStages_alone : spawnStages [] none [] [command] =
    (do match ← Action.fork (Child.ofCommand command) with
      | .error errno =>
        reportFork errno
        return ([], true)
      | .ok pid => return ([pid], false)) := by
  rw [spawnStages, List.head?_nil, Child.ofStage_alone hne]
  rfl

theorem runPipeline_alone :
    runPipeline shell ⟨[command], faults⟩ = runProgram shell command := by
  have hpipes : makePipes (Pipeline.length ⟨[command], faults⟩ - 1) = return ([], none) := rfl
  rw [runPipeline_eq (List.cons_ne_nil command []), hpipes, Behavior.pure_eq_done,
    Behavior.done_bind, runStages_eq, spawnStages_alone hne, runProgram, Behavior.bind_assoc]
  refine congrArg (Action.fork (Child.ofCommand command) >>= ·) (funext fun reply => ?_)
  rcases reply with errno | pid
  · exact congrArg (reportFork errno >>= ·) (funext fun _ => conclude_none shell _)
  · exact conclude_single shell command faults pid

/-- A program runs the same whether it stands alone or is the only stage of a pipeline: one line of
the journal apart, both are one action. So under a system without a journal, whatever it answers,
both make the same calls in the parent and in the child and give the same messages, and they end
with the same status, the same shell and the same state of the system. -/
theorem run_pipeline_alone (hb : command.builtin? = none) :
    (run shell (.simple command) =
      Action.log ("run: " ++ Text.quoteList command.argv) >>= fun _ =>
        run shell (.pipeline ⟨[command], faults⟩)) ∧
    ∀ {σ : Type} (host : Host σ), (∀ text state, host.note text state = state) →
      ∀ (bound : Nat) (state : σ),
        trace host bound (run shell (.pipeline ⟨[command], faults⟩)) state =
          trace host bound (run shell (.simple command)) state := by
  have hrun : run shell (.simple command) =
      Action.log ("run: " ++ Text.quoteList command.argv) >>= fun _ =>
        run shell (.pipeline ⟨[command], faults⟩) := by
    rw [run, run, runSimple_program shell hne hb, runPipeline_alone shell hne faults]
  refine ⟨hrun, fun host hquiet bound state => ?_⟩
  rw [hrun, Action.log, Behavior.note_bind, Behavior.done_bind, Action.trace_note, hquiet]

omit hne in
/-- In the background, where the input cannot be put in its place and the notice cannot be
written. -/
theorem run_pipeline_alone_script :
    let command : SimpleCommand :=
      ⟨["sort", "-n"], { input := .toPath 0 .input "in" }, ∅, true⟩
    let script : Script :=
      { plan := [(.duplicate, .failure .ebusy), (.write, .failure .eio)] }
    command.argv ≠ [] ∧ command.builtin? = none ∧
      (∀ text state, Script.host.note text state = state) ∧
      trace Script.host 1 (run {} (.pipeline ⟨[command], ∅⟩)) script =
        trace Script.host 1 (run {} (.simple command)) script := by
  intro command script
  exact ⟨by decide, by decide, fun _ _ => rfl,
    (run_pipeline_alone {} (by decide) ∅ (by decide)).2 Script.host (fun _ _ => rfl) 1 script⟩

end Job

end TinyShell
