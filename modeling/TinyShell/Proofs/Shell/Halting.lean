import TinyShell.Proofs.Shell.Chronicle

/-!
# How a session comes to its end

`Shell.Deed.halts`: a shell is told to stop by a prompt that finds no line or by `quit`, its process
is ended by `exit`, and nothing else does either. So a history of deeds that ends with a shell that
is to stop has such a prompt or a `quit` in it (`Shell.Lives.halted`), and the shell stays as that
has left it (`Shell.Lives.stopped`).
-/

namespace TinyShell

open TinyShell.Action (Ensures trace)

variable {σ : Type} {host : Host σ} {bound : Nat}

namespace Shell

/-- How a deed can end: what has told the shell to stop, or has ended its process. -/
def Deed.Halts (deed : Deed) (shell : Shell) : Ending Shell → Prop
  | .returned after => after.running = false → shell.running = false ∨ deed = .prompt ∨
      ∃ command, deed = .run (.simple command) ∧ command.builtin? = some .quit
  | .exited _ => ∃ command, deed = .run (.simple command) ∧ command.builtin? = some .exit

theorem Deed.Halts.of_unmoved {deed : Deed} {shell : Shell} {action : Action Shell}
    (h : Ensures action (Ending.Returned shell.Unmoved)) : Ensures action (deed.Halts shell) :=
  h.mono fun ending hu => by
    cases ending with
    | returned after => exact fun hstop => .inl (Unmoved.running hu ▸ hstop)
    | exited status => exact hu.elim

theorem Deed.halts {deed : Deed} (hs : deed.Single) (shell : Shell) :
    Ensures (deed.action shell) (deed.Halts shell) := by
  cases deed with
  | reap => exact .of_unmoved (reap_ensures shell)
  | prompt => exact (getCommand_ensures shell).andThen fun _ _ => .pure fun _ => .inr (.inl rfl)
  | take line =>
    refine .of_unmoved ((Ensures.log _).andThen fun _ _ => ?_)
    refine (parseLine_ensures shell line).mono fun _ h => h.mono ?_
    rintro _ rfl
    exact ⟨rfl, rfl⟩
  | leave =>
    refine .of_unmoved ((takeLeave_ensures shell).mono fun _ h => h.mono ?_)
    rintro _ rfl
    exact .refl _
  | run command =>
    have hunmoved (h : Ensures (Job.run shell command)
        (Ending.Returned fun result => shell.Unmoved result.2)) :
        Ensures ((Deed.run command).action shell) ((Deed.run command).Halts shell) :=
      .of_unmoved (h.andThen fun _ h => .pure h)
    cases command with
    | empty faults => exact hunmoved (.pure (.refl shell))
    | invalid faults => exact hunmoved ((Ensures.call _).andThen fun _ _ => .pure (.refl shell))
    | pipeline pipeline => exact hunmoved (Job.runPipeline_unmoved shell pipeline)
    | list => exact hs.elim
    | simple command =>
      refine (Job.runSimple_met shell command).bind (fun result hm => .pure ?_) fun status hm => ?_
      · intro hstop
        rcases hv : command.verdict with _ | given | status <;> rw [hv] at hm
        · exact .inl (hm.unmoved.running ▸ hstop)
        · exact .inr (.inr ⟨command, rfl, SimpleCommand.builtin?_of_stop hv⟩)
        · cases hm
      · have hname := SimpleCommand.verdict_eq_leave.1 (hm.exited_iff.1 ⟨status, rfl⟩)
        refine ⟨command, rfl, ?_⟩
        rw [SimpleCommand.builtin?, hname]
        rfl

/-- A deed that ends the process takes two notes, and does nothing else. -/
theorem Deed.of_exited {deed : Deed} (hs : deed.Single) {shell : Shell} {state last : σ}
    {status : Status}
    (h : (trace host bound (deed.action shell) state).result = some (.exited status, last)) :
    (trace host bound (deed.action shell) state).moves = [] ∧
      ∃ first second, last = host.note second (host.note first state) := by
  obtain ⟨command, rfl, hexit⟩ := Deed.halts hs shell σ host bound state
    (.exited status) last (by rw [← Action.trace_result, h])
  rw [Deed.action, Job.run, Job.runSimple_builtin shell hexit] at h ⊢
  exact ⟨rfl, _, _, (congrArg Prod.snd (Option.some.inj h)).symm⟩

/-- A shell that is to stop takes its leave, and stays as it is. -/
theorem Lives.stopped {due : Deed → Shell → Prop} {shell after : Shell} {state last : σ}
    {episodes : List (Episode σ)} (h : Lives host bound due shell state episodes after last)
    (hdue : ∀ deed shell, due deed shell → deed.InSession shell) (hs : shell.running = false) :
    after = shell := by
  induction h with
  | rest => rfl
  | @act deed shell between after state mid last moves episodes _ hd ht _ ih =>
    have hin := hdue deed shell hd
    cases deed with
    | leave =>
      have hresult : (trace host bound shell.takeLeave state).result =
          some (.returned between, mid) := congrArg Run.result ht
      obtain rfl : between = shell := of_ensures (takeLeave_ensures shell) hresult
      exact ih hs
    | _ => simp [Deed.InSession, hs] at hin

/-- The prompt found no line: it came to the end of the input, or failed to read. -/
def Episode.AtEnd (e : Episode σ) : Prop := e.deed = .prompt ∧ e.after.running = false

/-- What has stopped a shell is in its history. -/
theorem Lives.halted {due : Deed → Shell → Prop} {shell after : Shell} {state last : σ}
    {episodes : List (Episode σ)} (h : Lives host bound due shell state episodes after last)
    (hr : shell.running) (hs : after.running = false) : (∃ e ∈ episodes, e.AtEnd) ∨
      ∃ e ∈ episodes, ∃ command, e.deed = .run (.simple command) ∧
        command.builtin? = some .quit := by
  induction h with
  | rest => simp [hr] at hs
  | @act deed shell between after state mid last moves episodes hsingle _ ht _ ih =>
    have hhalts := Deed.halts hsingle shell σ host bound state (.returned between) mid
      (by rw [← Action.trace_result, ht])
    by_cases hbetween : between.running
    · refine (ih hbetween hs).imp ?_ ?_
      all_goals
        rintro ⟨e, he, h⟩
        exact ⟨e, List.mem_cons_of_mem _ he, h⟩
    · have hstop : between.running = false := by simpa using hbetween
      rcases hhalts hstop with hnot | rfl | hquit
      · simp [hr] at hnot
      · exact .inl ⟨_, List.mem_cons_self, rfl, hstop⟩
      · exact .inr ⟨_, List.mem_cons_self, hquit⟩

/-- A session that returns has been told to. -/
theorem runLoop_stopped {shell : Shell} {state last : σ} {result : Status × Shell}
    (h : (trace host bound shell.runLoop state).result = some (.returned result, last)) :
    result.2.running = false := by
  rw [trace_runLoop] at h
  obtain ⟨after, mid, hturns, hrest⟩ := Run.bind_returned h
  obtain ⟨left, mid', hleave, hvalue⟩ := Run.bind_returned hrest
  obtain ⟨rfl, -⟩ : (left.lastStatus, left) = result ∧ mid' = last := by
    simpa [Run.pure] using hvalue
  obtain rfl : left = after := of_ensures (takeLeave_ensures after) hleave
  exact turns_stopped hturns

end Shell

end TinyShell
