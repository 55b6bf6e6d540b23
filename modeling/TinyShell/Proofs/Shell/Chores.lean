import TinyShell.Proofs.Action.Hearing
import TinyShell.Proofs.Shell.Chronicle

/-!
# Chores

What a shell does between two reads is a chore (`Action.Chore`): it makes calls that are no reads,
starts children that make none, and goes round only to write a text. So it hears nothing
(`Action.Chore.calls`), and it ends as long as no write is interrupted for ever
(`Action.Chore.ends`). Running a command is a chore (`Job.run_chore`), and so is all that a session
does but reading its line.
-/

namespace TinyShell

open TinyShell.Action (Offhand Loopless Calls Ends)

variable {σ α β : Type}

namespace Action

/-- Calls that are no reads, texts, and children, one after the other. -/
inductive Chore : {α : Type} → Action α → Prop
  | offhand {α : Type} {action : Action α} : Offhand action → Chore action
  | wait (pid : Pid) : Chore (call (.wait pid))
  | tryWait (pid : Pid) : Chore (call (.tryWait pid))
  | display (label text : String) : Chore (display label text)
  | fork {child : Action Status} : Offhand child → Chore (fork child)
  | bind {α β : Type} {action : Action α} {next : α → Action β} : Chore action →
    (∀ value, Chore (next value)) → Chore (action >>= next)

namespace Chore

theorem pure (value : α) : Chore (pure value) := .offhand (.pure value)

theorem report (level : Level) (message : String) : Chore (report level message) :=
  .offhand (.report level message)

theorem log (text : String) : Chore (log text) := .offhand (.log text)

theorem rules : Rules (·.isRead = false) @Chore where
  pure := .pure
  bind := .bind
  log := .log
  call {request} _ hr := by
    cases request with
    | read => cases hr
    | wait pid => exact .wait pid
    | tryWait pid => exact .tryWait pid
    | _ => exact .offhand (.call rfl)
  close _ hn := .bind (.offhand (.call rfl)) fun _ => hn

theorem shellRules : Shell.Rules @Chore where
  toRules := rules.mono fun _ hr => Request.isRead_of_isOffhand hr.isOffhand
  exit status := .offhand (.exit status)
  display := .display
  fork hb := .fork hb.offhand
  waitFor _ := rules.waitFor rfl fun _ => rfl
  poll _ := rules.poll rfl (fun _ => rfl) .display

end Chore

/-- A chore reads nothing, and neither do its children. -/
theorem Chore.calls {action : Action α} (h : Chore action) :
    Calls (·.isRead = false) Offhand action := by
  induction h with
  | offhand ho =>
    exact ho.calls.mono (fun _ => Request.isRead_of_isOffhand) fun _ => False.elim
  | wait pid | tryWait pid => exact .call rfl
  | display label text => exact .display (fun _ => rfl) label text
  | fork hc => exact .fork hc
  | bind _ _ ih ihn => exact ih.bind ihn

theorem Chore.ends {host : Host σ} (hs : host.Settles) {action : Action α} (h : Chore action)
    (state : σ) : Ends host action state := by
  induction h generalizing state with
  | offhand ho => exact ho.loopless.ends host state
  | wait pid | tryWait pid => exact (Loopless.ask fun _ => .done _).ends host state
  | display label text => exact display_ends hs.settlesOn label text trivial
  | fork hc => exact (Loopless.spawn hc.loopless fun _ => .done _).ends host state
  | bind _ _ ih ihn => exact (ih state).bind fun _ value after _ => ihn value after

end Action

open TinyShell.Action (Chore)

/-- Running a command is a chore, however the shell goes on after it. -/
theorem Job.run_chore (shell : Shell) (command : Command) : Chore (run shell command) :=
  Chore.shellRules.run shell command

namespace Shell

theorem reap_chore (shell : Shell) : Chore shell.reap := Chore.shellRules.reap shell

theorem takeLeave_chore (shell : Shell) : Chore shell.takeLeave := Chore.shellRules.takeLeave shell

end Shell

end TinyShell
