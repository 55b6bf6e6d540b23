import TinyShell.Proofs.Rehearsal.Firm
import TinyShell.Proofs.Shell.Offhand

/-!
# Failures of writes and closes

Prompts and notices may be lost, and descriptors may stay open, but the shell goes on as if nothing
had happened (`Shell.failures_unheeded`): it starts, tracks and collects the same children, reports
the same, and comes to the same. The children do the same as well.
-/

namespace TinyShell

open TinyShell.Action (Heedless Same)

namespace Action.Heedless

theorem childRules : Child.Rules @Heedless where
  toRules := loopRules.mono fun _ _ => trivial
  exec := .exec

theorem shellRules : Shell.Rules @Heedless where
  toRules := loopRules.mono fun _ _ => trivial
  exit := .exit
  display := display_last
  fork hb := .fork hb.offhand.loopless (childRules.body hb)
  waitFor _ := loopRules.waitFor trivial fun _ => trivial
  poll _ := loopRules.poll trivial (fun _ => trivial) display_last

end Action.Heedless

namespace Shell

theorem runLoop_heedless (shell : Shell) : Heedless shell.runLoop :=
  Heedless.shellRules.runLoop (Heedless.loopRules.read trivial) Heedless.loopRules.iterate shell

/-- What comes of writes and closes never matters. On two systems that agree in all else, a command,
a line, a look at the children in the background and a whole session do the same and come to the
same: the same calls with the same replies, the same texts offered, the same messages, and then the
same result and the same shell. -/
theorem failures_unheeded {σ τ : Type} {host : Host σ} {other : Host τ} {related : σ → τ → Prop}
    (h : host.Agrees other related) {state : σ} {state' : τ} (hrel : related state state') :
    (∀ shell command, Same host other (Job.run shell command) state state') ∧
    (∀ shell line, Same host other (runLine shell line) state state') ∧
    (∀ shell, Same host other (reap shell) state state') ∧
    ∀ shell, Same host other (runLoop shell) state state' :=
  ⟨fun shell command => (Heedless.shellRules.run shell command).same h hrel,
    fun shell line => (Heedless.shellRules.runLine shell line).same h hrel,
    fun shell => (Heedless.shellRules.reap shell).same h hrel,
    fun shell => (runLoop_heedless shell).same h hrel⟩

/-- All goes well, or a prompt is lost, a notice is cut off and pipes cannot be closed. -/
theorem failures_unheeded_scripts :
    let input := (Text.encode "sleep 9 &\ncat | wc\nquit 3\n").map InputItem.byte
    let smooth : Script := { input }
    let rough : Script := { input, plan := [(.write, .failure .eintr), (.write, .failure .epipe),
      (.write, .value 2), (.write, .value 0), (.close, .failure .ebadf),
      (.close, .failure .eintr)] }
    Script.host.Agrees Script.host Script.Agrees ∧ smooth.Agrees rough ∧
    (∀ shell command, Same Script.host Script.host (Job.run shell command) smooth rough) ∧
    (∀ shell line, Same Script.host Script.host (runLine shell line) smooth rough) ∧
    (∀ shell, Same Script.host Script.host (reap shell) smooth rough) ∧
    ∀ shell, Same Script.host Script.host (runLoop shell) smooth rough := by
  intro input smooth rough
  have hagree : smooth.Agrees rough := ⟨rfl, rfl, rfl, rfl, rfl, rfl, rfl⟩
  exact ⟨Script.host_agrees, hagree, failures_unheeded Script.host_agrees hagree⟩

end Shell

end TinyShell
