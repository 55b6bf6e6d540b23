import TinyShell.Proofs.Action.Trace
import TinyShell.Proofs.Shell.Rules

/-!
# Offhand actions

An action is offhand if it takes no input, starts no child and asks about none, and never goes round
(`Action.Offhand`). What a child does before its program is of this kind (`Child.ofStage_offhand`,
`Child.ofCommand_offhand`), and much of what the shell does between its children.
-/

namespace TinyShell

variable {α β : Type}

/-- A call that neither takes input nor asks about a child. -/
def Request.isOffhand : Request → Bool
  | .read .. | .wait _ | .tryWait _ => false
  | _ => true

theorem Request.IsPreparation.isOffhand {request : Request} (h : request.IsPreparation) :
    request.isOffhand := by
  cases request <;> first | rfl | cases h

theorem Request.IsErrand.isOffhand {request : Request} (h : request.IsErrand) :
    request.isOffhand := by
  cases request <;> first | rfl | cases h

namespace Action

/-- All calls are offhand, and no child is started. -/
inductive Offhand : {α : Type} → Action α → Prop
  | done {α : Type} (value : α) : Offhand (.done value)
  | exit {α : Type} (status : Status) : Offhand (.exit status : Action α)
  | ask {α : Type} {request : Request} {next : request.Reply → Action α} :
    request.isOffhand → (∀ reply, Offhand (next reply)) → Offhand (.ask request next)
  | exec {α : Type} {program : String} {argv : List String} {next : Errno → Action α} :
    (∀ errno, Offhand (next errno)) → Offhand (.exec program argv next)
  | note {α : Type} {text : String} {next : Action α} : Offhand next → Offhand (.note text next)

namespace Offhand

theorem pure (value : α) : Offhand (pure value) := .done value

theorem bind {action : Action α} {next : α → Action β} (h : Offhand action)
    (hn : ∀ value, Offhand (next value)) : Offhand (action >>= next) := by
  induction h with
  | done value => exact hn value
  | exit status => exact .exit status
  | ask hr _ ih => exact .ask hr ih
  | exec _ ih => exact .exec ih
  | note _ ih => exact .note ih

theorem call {request : Request} (h : request.isOffhand) : Offhand (call request) := .ask h .done

theorem report (level : Level) (message : String) : Offhand (report level message) := call rfl

theorem log (text : String) : Offhand (log text) := .note (.done ())

theorem rules : Rules (·.isOffhand) @Offhand where
  pure := .pure
  bind := .bind
  log := .log
  call _ hr := .call hr
  close hr hn := .bind (.call hr) fun _ => hn

theorem childRules : Child.Rules @Offhand where
  toRules := rules.mono fun _ => Request.IsPreparation.isOffhand
  exec := .exec

theorem loopless {action : Action α} (h : Offhand action) : Loopless action := by
  induction h with
  | done value => exact .done value
  | exit status => exact .exit status
  | ask _ _ ih => exact .ask ih
  | exec _ ih => exact .exec ih
  | note _ ih => exact .note ih

end Offhand

end Action

open TinyShell.Action (Offhand)

namespace Child

theorem ofCommand_offhand (command : SimpleCommand) : Offhand (ofCommand command) :=
  Offhand.childRules.ofCommand command

/-- A child comes to its program, or fails, without ever going round. -/
theorem ofStage_offhand (pipes : List Pipe) (before after : Option Pipe)
    (stage : SimpleCommand) : Offhand (ofStage pipes before after stage) :=
  Offhand.childRules.ofStage pipes before after stage

theorem Body.offhand {body : Action Status} (h : Body body) : Offhand body :=
  Offhand.childRules.body h

end Child

theorem Shell.parseLine_offhand (shell : Shell) (line : String) : Offhand (shell.parseLine line) :=
  Offhand.rules.parseLine (fun _ => rfl) shell line

end TinyShell
