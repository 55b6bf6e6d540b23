import TinyShell.Proofs.Action.Ledger
import TinyShell.Shell.Line

/-!
# Writing ends

A text is written in a loop, which goes round again when a call took a part of it or was
interrupted. `writeText_ends`: the loop ends as long as no call is interrupted for ever. Whatever
the system answers, nothing is called but `write`, and a text that could not be written does not
keep the shell from going on (`display_writes`).
-/

namespace TinyShell

open Text (Bytes)

variable {σ α β : Type}

/-- From this state the call is answered by something else than an interruption, at once or when
it has been made again. -/
inductive Host.Settled (host : Host σ) (fd : Descriptor) (bytes : Bytes) : σ → Prop
  | here {state : σ} : (host.answer (.write fd bytes) state).1 ≠ .error .eintr →
    Settled host fd bytes state
  | again {state : σ} : Settled host fd bytes (host.answer (.write fd bytes) state).2 →
    Settled host fd bytes state

/-- No write is interrupted for ever. -/
def Host.Settles (host : Host σ) : Prop := ∀ fd bytes state, host.Settled fd bytes state

/-- In these states no write is interrupted for ever, and a write does not leave them. -/
structure Host.SettlesOn (host : Host σ) (states : σ → Prop) : Prop where
  settled : ∀ fd bytes state, states state → host.Settled fd bytes state
  write : ∀ fd bytes state, states state → states (host.answer (.write fd bytes) state).2

theorem Host.Settles.settlesOn {host : Host σ} (h : host.Settles) :
    host.SettlesOn fun _ => True :=
  ⟨fun fd bytes state _ => h fd bytes state, fun _ _ _ _ => trivial⟩

/-- A write that was interrupted. -/
def Move.isInterrupted : Move σ → Bool
  | .asked _ (.write ..) (.error .eintr) => true
  | _ => false

/-- What is left to write after a reply, or the outcome if nothing is. -/
def writeOutcome (bytes : Bytes) : Except Errno Nat → Bytes ⊕ Except Errno Unit
  | .ok 0 => .inr (.error .eio)
  | .ok taken => .inl (bytes.drop taken)
  | .error .eintr => .inl bytes
  | .error errno => .inr (.error errno)

/-- There is something left after an interruption, or after a call that took some of the bytes. -/
theorem writeOutcome_eq_inl {bytes next : Bytes} {reply : Except Errno Nat}
    (h : writeOutcome bytes reply = .inl next) : reply = .error .eintr ∧ next = bytes ∨
      ∃ taken, reply = .ok (taken + 1) ∧ next = bytes.drop (taken + 1) := by
  rcases reply with errno | _ | taken
  · by_cases he : errno = .eintr
    · subst he
      obtain rfl : bytes = next := by simpa [writeOutcome] using h
      exact .inl ⟨rfl, rfl⟩
    · cases errno <;> first | exact absurd rfl he | cases h
  · cases h
  · obtain rfl : bytes.drop (taken + 1) = next := by simpa [writeOutcome] using h
    exact .inr ⟨taken, rfl, rfl⟩

theorem trace_writeSome (host : Host σ) (bound : Nat) (fd : Descriptor) {bytes : Bytes}
    (hne : bytes ≠ []) (state : σ) :
    Action.trace host bound (writeSome fd bytes) state =
      ⟨[.asked state (.write fd bytes) (host.answer (.write fd bytes) state).1],
        some (.returned (writeOutcome bytes (host.answer (.write fd bytes) state).1),
          (host.answer (.write fd bytes) state).2)⟩ := by
  have hb : bytes.isEmpty = false := by simpa using hne
  simp only [writeSome, hb, Bool.false_eq_true, if_false]
  rw [Action.trace_call_bind]
  rcases (host.answer (.write fd bytes) state).1 with errno | taken
  · cases errno <;> rfl
  · cases taken <;> rfl

/-! ## The moves of a text -/

/-- A run that only writes, and does not leave. -/
structure Run.Writes (fd : Descriptor) (run : Run σ α) : Prop where
  moves : ∀ move ∈ run.moves, ∃ before bytes reply, move = .asked before (.write fd bytes) reply
  stays : ∀ status state, run.result ≠ some (.exited status, state)

namespace Run.Writes

variable {fd : Descriptor}

theorem pure (value : α) (state : σ) : (Run.pure value state).Writes fd :=
  ⟨by simp [Run.pure], by simp [Run.pure]⟩

theorem bind {run : Run σ α} {next : α → σ → Run σ β} (h : run.Writes fd)
    (hn : ∀ value state, (next value state).Writes fd) : (run.bind next).Writes fd := by
  obtain ⟨moves, result⟩ := run
  rcases result with _ | ⟨value | status, state⟩
  · exact ⟨h.moves, by simp [Run.bind]⟩
  · refine ⟨fun move hm => ?_, (hn value state).stays⟩
    rcases List.mem_append.1 hm with hm | hm
    · exact h.moves move hm
    · exact (hn value state).moves move hm
  · exact absurd rfl (h.stays status state)

theorem rules : Rules fun (_ : σ) run => run.Writes fd where
  cut _ := ⟨nofun, nofun⟩
  pure := .pure
  bind := .bind

theorem ledger {run : Run σ α} (h : run.Writes fd) : Ledger.of run.moves = {} :=
  Ledger.of_eq_empty fun move hm => by
    obtain ⟨before, bytes, reply, rfl⟩ := h.moves move hm
    rfl

end Run.Writes

section
variable (host : Host σ) (bound : Nat) (fd : Descriptor)

theorem writeSome_writes (bytes : Bytes) (state : σ) :
    (Action.trace host bound (writeSome fd bytes) state).Writes fd := by
  rcases bytes with _ | ⟨byte, rest⟩
  · exact .pure _ state
  · rw [trace_writeSome host bound fd (by simp)]
    exact ⟨by simp, by simp⟩

theorem trace_writeText (text : String) (state : σ) :
    Action.trace host bound (writeText fd text) state =
      Action.traceRounds (fun bytes state => Action.trace host bound (writeSome fd bytes) state)
        bound (Text.encode text) state :=
  Action.trace_iterate ..

theorem writeText_writes (text : String) (state : σ) :
    (Action.trace host bound (writeText fd text) state).Writes fd := by
  rw [trace_writeText]
  exact Run.Writes.rules.rounds (writeSome_writes host bound fd) bound _ state

theorem display_writes (label text : String) (state : σ) :
    (Action.trace host bound (display label text) state).Writes .output := by
  rw [display, Action.trace_bind]
  refine (writeText_writes host bound .output text state).bind fun result state => ?_
  rcases result with errno | _
  · exact .pure () _
  · exact .pure () _

end

/-! ## Termination -/

section
variable {host : Host σ} (fd : Descriptor) (limit : Nat)

/-- The rounds of writing bytes. -/
abbrev writeRounds (host : Host σ) (fd : Descriptor) (limit : Nat) :
    (bound : Nat) → Bytes → σ → Run σ (Except Errno Unit) :=
  Action.traceRounds fun bytes state => Action.trace host limit (writeSome fd bytes) state

/-- A call that was not interrupted has taken some of the bytes, or ended the loop. -/
theorem writeRounds_progress {bytes : Bytes} (hne : bytes ≠ []) {state : σ}
    (hs : (host.answer (.write fd bytes) state).1 ≠ .error .eintr)
    (hshort : ∀ rest : Bytes, rest.length < bytes.length → ∃ bound, (writeRounds host fd limit bound
      rest (host.answer (.write fd bytes) state).2).result.isSome) :
    ∃ bound, (writeRounds host fd limit bound bytes state).result.isSome := by
  rcases hr : (host.answer (.write fd bytes) state).1 with errno | (_ | taken)
  · refine ⟨1, ?_⟩
    rw [writeRounds, Action.traceRounds, trace_writeSome host limit fd hne, hr]
    cases errno <;> first | rfl | exact absurd hr hs
  · refine ⟨1, ?_⟩
    rw [writeRounds, Action.traceRounds, trace_writeSome host limit fd hne, hr]
    rfl
  · have hlt : (bytes.drop (taken + 1)).length < bytes.length := by
      have := List.length_pos_iff.2 hne
      rw [List.length_drop]
      omega
    obtain ⟨bound, hb⟩ := hshort _ hlt
    refine ⟨bound + 1, ?_⟩
    rw [writeRounds, Action.traceRounds, trace_writeSome host limit fd hne, hr]
    exact hb

theorem writeRounds_ends {states : σ → Prop} (h : host.SettlesOn states) (bytes : Bytes)
    {state : σ} (hin : states state) :
    ∃ bound, (writeRounds host fd limit bound bytes state).result.isSome := by
  induction hn : bytes.length using Nat.strongRecOn generalizing bytes state with
  | ind n ih =>
    subst hn
    by_cases hne : bytes = []
    · exact ⟨1, by subst hne; rfl⟩
    have hshort := fun (rest : Bytes) hlt {state} hin => @ih rest.length hlt rest state hin rfl
    -- the same bytes are offered until a call is not interrupted
    induction h.settled fd bytes state hin with
    | @here state hs =>
      exact writeRounds_progress fd limit hne hs fun rest hlt =>
        hshort rest hlt (h.write fd bytes state hin)
    | @again state _ iha =>
      by_cases hs : (host.answer (.write fd bytes) state).1 = .error .eintr
      · obtain ⟨bound, hb⟩ := iha (h.write fd bytes state hin)
        refine ⟨bound + 1, ?_⟩
        rw [writeRounds, Action.traceRounds, trace_writeSome host limit fd hne, hs]
        exact hb
      · exact writeRounds_progress fd limit hne hs fun rest hlt =>
          hshort rest hlt (h.write fd bytes state hin)

end

/-- Writing a text ends, if no call is interrupted for ever. -/
theorem writeText_ends {host : Host σ} {states : σ → Prop} (h : host.SettlesOn states)
    (fd : Descriptor) (text : String) {state : σ} (hin : states state) :
    Action.Ends host (writeText fd text) state := by
  obtain ⟨bound, hb⟩ := writeRounds_ends fd 0 h (Text.encode text) hin
  refine ⟨bound, ?_⟩
  rw [trace_writeText]
  -- one call has no loop in it, so its bound does not matter
  rwa [Action.traceRounds_mono (fun bytes state hs => Action.trace_mono (Nat.zero_le bound) hs)
    (Nat.le_refl bound) hb]

/-- A text that is displayed is written and forgotten. -/
theorem display_ends {host : Host σ} {states : σ → Prop} (h : host.SettlesOn states)
    (label text : String) {state : σ} (hin : states state) :
    Action.Ends host (display label text) state := by
  refine (writeText_ends h .output text hin).bind fun _ result after _ => ?_
  rcases result with errno | _
  · exact (Action.Loopless.note (.pure ())).ends host after
  · exact (Action.Loopless.pure ()).ends host after

end TinyShell
