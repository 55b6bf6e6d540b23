import TinyShell.Proofs.Action.Alike
import TinyShell.Proofs.Shell.Offhand
import TinyShell.Rehearsal.Recorder

/-!
# Recorders abreast

Two recorders are abreast if they made the same calls and answer further ones alike, though they may
differ in children that are not known to both, and in what their `View` leaves out. What is done
offhand is done alike by both, and leaves them abreast (`Action.Offhand.tandem`); so does a text
that both display (`display_tandem`), and a child that both start (`Action.fork_alike`), which they
know from then on.
-/

namespace TinyShell

open Text (Bytes)

/-- What two shells and their recorders are compared in, besides their calls. -/
structure View where
  /-- How what is left of their inputs is related. -/
  input : Bytes → Bytes → Prop
  output : Bool
  reports : Bool
  background : Bool

variable {view : View} {known : Pid → Prop}

namespace Recorder

/-- What the replies to offhand calls depend on. -/
def core (recorder : Recorder) : Recorder :=
  { recorder with input := [], record := { events := recorder.record.events }, ended := [] }

/-- The same calls so far, and the same replies to further ones, as long as none is about input or
about a child that is not known. -/
structure Abreast (view : View) (known : Pid → Prop) (recorder recorder' : Recorder) : Prop where
  core : recorder.core = recorder'.core
  input : view.input recorder.input recorder'.input
  output : view.output → recorder.record.output = recorder'.record.output
  reports : view.reports → recorder.record.reports = recorder'.record.reports
  ended : ∀ pid, known pid → recorder.ended.lookup pid = recorder'.ended.lookup pid

variable {recorder recorder' : Recorder}

/-! ## Single calls -/

/-- What was done from a core, as an addition to what was there besides it. -/
def onto (added base : Recorder) : Recorder :=
  { added with
    input := base.input
    record :=
      { events := added.record.events
        output := base.record.output ++ added.record.output
        reports := base.record.reports ++ added.record.reports }
    ended := base.ended }

theorem answer_eq_onto {request : Request} (h : request.isOffhand) (recorder : Recorder) :
    answer request recorder =
      ((answer request recorder.core).1, (answer request recorder.core).2.onto recorder) := by
  obtain ⟨_, _, _, badPaths, _, _, _, _, _, replaced⟩ := recorder
  cases request with
  | read | wait | tryWait => cases h
  | pipe | processId => simp [answer, core, onto, addEvent, Record.addEvent]
  | duplicate | close =>
    cases replaced <;> simp [answer, core, onto, ifAwake, Record.addEvent]
  | openFile path | changeDirectory path =>
    by_cases hp : path ∈ badPaths <;> simp [answer, core, onto, addEvent, Record.addEvent, hp]
  | write fd bytes =>
    by_cases hfd : fd = .output <;> cases replaced <;>
      simp [answer, core, onto, Record.addOutput, hfd]
  | report => cases replaced <;> simp [answer, core, onto, Record.addReport]

theorem exec_eq_onto (program : String) (argv : List String) (recorder : Recorder) :
    exec program argv recorder =
      ((exec program argv recorder.core).1, (exec program argv recorder.core).2.onto recorder) := by
  by_cases hm : program ∈ recorder.missing <;>
    simp [exec, core, onto, addEvent, Record.addEvent, hm]

theorem fork_eq_onto (recorder : Recorder) :
    fork recorder = ((fork recorder.core).1, (fork recorder.core).2.onto recorder) := by
  obtain ⟨_, _, _, _, failFork, _, _, _, _, _⟩ := recorder
  cases failFork <;> simp [fork, core, onto, addEvent, Record.addEvent]

theorem lookup_cons_ite (first other : Pid) (status : Status) (ended : List (Pid × Status)) :
    ((first, status) :: ended).lookup other =
      if other = first then some status else ended.lookup other := by
  by_cases h : other = first
  · simp [h]
  · rw [List.lookup_cons, beq_eq_false_iff_ne.2 h, if_neg h]

/-- To forget a child changes nothing about the others. -/
theorem lookup_filter_ne (ended : List (Pid × Status)) (pid other : Pid) :
    (ended.filter (·.1 ≠ pid)).lookup other = if other = pid then none else ended.lookup other := by
  induction ended with
  | nil => simp
  | cons entry rest ih =>
    obtain ⟨first, status⟩ := entry
    rw [List.filter_cons, lookup_cons_ite]
    by_cases hf : first = pid
    · simp only [hf, ne_eq, not_true_eq_false, decide_false, Bool.false_eq_true, if_false, ih]
      by_cases ho : other = pid <;> simp only [ho, if_true, if_false]
    · simp only [hf, ne_eq, not_false_eq_true, decide_true, if_true, lookup_cons_ite, ih]
      by_cases ho : other = first
      · subst ho
        simp [hf]
      · simp [ho]

namespace Abreast

theorem refl (view : View) (known : Pid → Prop) (recorder : Recorder)
    (h : view.input recorder.input recorder.input) : recorder.Abreast view known recorder :=
  ⟨rfl, h, fun _ => rfl, fun _ => rfl, fun _ _ => rfl⟩

/-- The same calls were recorded. -/
theorem events (h : recorder.Abreast view known recorder') :
    recorder.record.events = recorder'.record.events := by
  have hcore : recorder.core.record.events = recorder'.core.record.events :=
    congrArg (·.record.events) h.core
  exact hcore

theorem mono {known' : Pid → Prop} (h : recorder.Abreast view known recorder')
    (hk : ∀ pid, known' pid → known pid) : recorder.Abreast view known' recorder' :=
  ⟨h.core, h.input, h.output, h.reports, fun pid hp => h.ended pid (hk pid hp)⟩

/-- The same addition to both. -/
theorem onto (h : recorder.Abreast view known recorder') (added : Recorder) :
    (added.onto recorder).Abreast view known (added.onto recorder') where
  core := rfl
  input := h.input
  output hv := congrArg (· ++ added.record.output) (h.output hv)
  reports hv := congrArg (· ++ added.record.reports) (h.reports hv)
  ended := h.ended

theorem answer (h : recorder.Abreast view known recorder') (request : Request)
    (ho : request.isOffhand) :
    (Recorder.answer request recorder').1 = (Recorder.answer request recorder).1 ∧
      (Recorder.answer request recorder).2.Abreast view known
        (Recorder.answer request recorder').2 := by
  rw [answer_eq_onto ho recorder, answer_eq_onto ho recorder', ← h.core]
  exact ⟨rfl, h.onto _⟩

theorem exec (h : recorder.Abreast view known recorder') (program : String) (argv : List String) :
    (Recorder.exec program argv recorder').1 = (Recorder.exec program argv recorder).1 ∧
      (Recorder.exec program argv recorder).2.Abreast view known
        (Recorder.exec program argv recorder').2 := by
  rw [exec_eq_onto _ _ recorder, exec_eq_onto _ _ recorder', ← h.core]
  exact ⟨rfl, h.onto _⟩

theorem fork (h : recorder.Abreast view known recorder') :
    (Recorder.fork recorder').1 = (Recorder.fork recorder).1 ∧
      (Recorder.fork recorder).2.Abreast view known (Recorder.fork recorder').2 := by
  rw [fork_eq_onto recorder, fork_eq_onto recorder', ← h.core]
  exact ⟨rfl, h.onto _⟩

/-- A child that ends in both is known from then on. -/
theorem finish (h : recorder.Abreast view known recorder') (pid : Pid) (status : Status) :
    (recorder.finish pid status).Abreast view (fun other => known other ∨ other = pid)
      (recorder'.finish pid status) where
  core := congrArg (fun core : Recorder => { core with replaced := false }) h.core
  input := h.input
  output := h.output
  reports := h.reports
  ended other ho := by
    have hreplaced : recorder.core.replaced = recorder'.core.replaced :=
      congrArg Recorder.replaced h.core
    have hstatus : recorder.core.execStatus = recorder'.core.execStatus :=
      congrArg Recorder.execStatus h.core
    simp only [Recorder.core] at hreplaced hstatus
    simp only [Recorder.finish, lookup_cons_ite, lookup_filter_ne, hreplaced, hstatus]
    by_cases hp : other = pid
    · simp only [hp, if_true]
    · simp only [hp, if_false, h.ended other (ho.resolve_right hp)]

theorem addEvent (h : recorder.Abreast view known recorder') (event : Event) :
    (recorder.addEvent event).Abreast view known (recorder'.addEvent event) :=
  ⟨congrArg (Recorder.addEvent · event) h.core, h.input, h.output, h.reports, h.ended⟩

/-- A known child is collected alike, and then it is gone from both. -/
theorem collect (h : recorder.Abreast view known recorder') {pid : Pid} (hk : known pid) :
    (recorder'.collect pid).1 = (recorder.collect pid).1 ∧
      (recorder.collect pid).2.Abreast view known (recorder'.collect pid).2 := by
  have hp := h.ended pid hk
  unfold Recorder.collect
  rw [← hp]
  rcases recorder.ended.lookup pid with _ | status
  · exact ⟨rfl, h⟩
  · refine ⟨rfl, h.core, h.input, h.output, h.reports, fun other ho => ?_⟩
    rw [lookup_filter_ne, lookup_filter_ne, h.ended other ho]

end Abreast

/-! ## Output -/

/-- The recorder once these bytes were written to standard output. -/
def put (recorder : Recorder) (bytes : Bytes) : Recorder :=
  if recorder.replaced then recorder
  else { recorder with record := recorder.record.addOutput bytes }

theorem answer_write_output (bytes : Bytes) (recorder : Recorder) :
    answer (.write .output bytes) recorder = (.ok bytes.length, recorder.put bytes) := by
  by_cases hr : recorder.replaced <;> simp [answer, put, hr]

@[simp]
theorem put_nil (recorder : Recorder) : recorder.put [] = recorder := by
  simp [put, Record.addOutput]

theorem Abreast.put (h : recorder.Abreast view known recorder') (bytes : Bytes) :
    (recorder.put bytes).Abreast view known (recorder'.put bytes) := by
  have hafter := (h.answer (.write .output bytes) rfl).2
  rwa [answer_write_output, answer_write_output] at hafter

/-- Output of one alone, where output is not compared. -/
theorem Abreast.put_left (h : recorder.Abreast view known recorder') (hv : view.output = false)
    (bytes : Bytes) : (recorder.put bytes).Abreast view known recorder' := by
  unfold Recorder.put
  split
  · exact h
  · exact ⟨h.core, h.input, by simp [hv], h.reports, h.ended⟩

/-- The recorder once these messages were reported. -/
def tell (recorder : Recorder) (messages : List (Level × String)) : Recorder :=
  if recorder.replaced then recorder
  else { recorder with
    record := { recorder.record with reports := recorder.record.reports ++ messages } }

@[simp]
theorem tell_nil (recorder : Recorder) : recorder.tell [] = recorder := by simp [tell]

theorem tell_cons (recorder : Recorder) (level : Level) (message : String)
    (rest : List (Level × String)) : recorder.tell ((level, message) :: rest) =
      (answer (.report level message) recorder).2.tell rest := by
  by_cases hr : recorder.replaced <;> simp [tell, answer, Record.addReport, hr]

theorem Abreast.tell (h : recorder.Abreast view known recorder')
    (messages : List (Level × String)) :
    (recorder.tell messages).Abreast view known (recorder'.tell messages) := by
  induction messages generalizing recorder recorder' with
  | nil => simpa using h
  | cons message rest ih =>
    rw [tell_cons, tell_cons]
    exact ih (h.answer (.report ..) rfl).2

/-- Messages that are not the same, where messages are not compared. -/
theorem Abreast.tell_apart (h : recorder.Abreast view known recorder') (hv : view.reports = false)
    (messages messages' : List (Level × String)) :
    (recorder.tell messages).Abreast view known (recorder'.tell messages') := by
  unfold Recorder.tell
  split <;> split <;> exact ⟨h.core, h.input, h.output, by simp [hv], h.ended⟩

end Recorder

/-! ## Actions in tandem -/

namespace Action

variable {α β γ : Type} {recorder recorder' : Recorder}

/-- The two actions end alike, with values that are related if they return, and the recorders are
abreast after them. -/
abbrev Tandem (view : View) (known : Pid → Prop) (related : α → β → Prop) (action : Action α)
    (recorder : Recorder) (action' : Action β) (recorder' : Recorder) : Prop :=
  Alike Recorder.host (Recorder.Abreast view known)
    (fun value value' after after' => related value value' ∧ after.Abreast view known after')
    action recorder action' recorder'

theorem Tandem.forget {known' : Pid → Prop} {related : α → β → Prop} {action : Action α}
    {action' : Action β} (h : Tandem view known' related action recorder action' recorder')
    (hk : ∀ pid, known pid → known' pid) :
    Tandem view known related action recorder action' recorder' :=
  Alike.mono h (fun _ _ h => h.mono hk) fun _ _ _ _ h => ⟨h.1, h.2.mono hk⟩

/-- What is offhand is done alike by both. -/
theorem Offhand.tandem {action : Action α} (ha : Offhand action)
    (h : recorder.Abreast view known recorder') :
    Tandem view known Eq action recorder action recorder' := by
  induction ha generalizing recorder recorder' with
  | done value => exact .pure ⟨rfl, h⟩
  | exit status => exact .exited (.exit status _) (.exit status _) h
  | @ask request next ho _ ih =>
    obtain ⟨hreply, hafter⟩ := h.answer request ho
    have hnext : next (Recorder.host.answer request recorder').1 =
        next (Recorder.host.answer request recorder).1 := congrArg next hreply
    refine .ask ?_
    rw [hnext]
    exact ih _ hafter
  | @exec program argv next _ ih =>
    obtain ⟨hresult, hafter⟩ := h.exec program argv
    rcases he : Recorder.exec program argv recorder with ⟨errno | status, after⟩ <;>
      rcases he' : Recorder.exec program argv recorder' with ⟨result', after'⟩ <;>
      rw [he, he'] at hresult hafter <;> obtain rfl := hresult
    · exact .exec_error he he' (ih errno hafter)
    · exact .exited (.exec_ok he) (.exec_ok he') hafter
  | note _ ih => exact .note (ih h)

/-- Something offhand first, in both. -/
theorem Offhand.before {action : Action γ} {next : γ → Action α} {next' : γ → Action β}
    {related : α → β → Prop} (ha : Offhand action) (h : recorder.Abreast view known recorder')
    (hn : ∀ value after after', after.Abreast view known after' →
      Tandem view known related (next value) after (next' value) after') :
    Tandem view known related (action >>= next) recorder (action >>= next') recorder' := by
  refine (ha.tandem h).bind ?_
  rintro value _ after after' ⟨rfl, h⟩
  exact hn value after after' h

/-- A child whose actions are offhand ends alike in both, and is known then. -/
theorem fork_alike {child : Action Status} (hc : Offhand child)
    (h : recorder.Abreast view known recorder') :
    Alike Recorder.host (Recorder.Abreast view known)
      (fun result result' after after' => result = result' ∧
        after.Abreast view (fun pid => known pid ∨ result = .ok pid) after')
      (fork child) recorder (fork child) recorder' := by
  obtain ⟨hresult, hborn⟩ := h.fork
  rcases hf : Recorder.fork recorder with ⟨errno | pid, born⟩ <;>
    rcases hf' : Recorder.fork recorder' with ⟨result', born'⟩ <;>
    rw [hf, hf'] at hresult hborn <;> obtain rfl := hresult
  · exact .returned (.spawn_error hf (.pure _ _)) (.spawn_error hf' (.pure _ _))
      ⟨rfl, hborn.mono (by simp)⟩
  · have hknown : ∀ other, known other ∨ Except.ok (ε := Errno) pid = .ok other →
        known other ∨ other = pid := by
      rintro other (hk | ho)
      · exact .inl hk
      · exact .inr (Except.ok.inj ho).symm
    cases hc.tandem hborn with
    | @returned status _ gone gone' hr hr' hgone =>
      obtain ⟨rfl, hgone⟩ := hgone
      exact .returned (.spawn_ok hf hr (.pure _ _)) (.spawn_ok hf' hr' (.pure _ _))
        ⟨rfl, (hgone.finish pid status).mono hknown⟩
    | @exited status gone gone' hx hx' hgone =>
      exact .returned (.spawn_ok hf hx (.pure _ _)) (.spawn_ok hf' hx' (.pure _ _))
        ⟨rfl, (hgone.finish pid status).mono hknown⟩

end Action

/-! ## Texts -/

/-- A recorder takes all bytes at once. -/
theorem writeSome_comesTo {bytes : Bytes} (hne : bytes ≠ []) (recorder : Recorder) :
    Action.ComesTo Recorder.host (writeSome .output bytes) recorder (.returned (.inl []))
      (recorder.put bytes) := by
  obtain ⟨byte, rest, rfl⟩ := List.exists_cons_of_ne_nil hne
  have hleft : (byte :: rest).drop (rest.length + 1) = [] := List.drop_of_length_le (by simp)
  refine .bind (.call (Recorder.answer_write_output (byte :: rest) recorder)) ?_
  simp only [List.length_cons, hleft]
  exact .pure _ _

theorem writeText_comesTo (text : String) (recorder : Recorder) :
    Action.ComesTo Recorder.host (writeText .output text) recorder (.returned (.ok ()))
      (recorder.put (Text.encode text)) := by
  have hlast (recorder : Recorder) : Action.ComesTo Recorder.host
      (Action.iterate (writeSome .output) []) recorder (.returned (.ok ())) recorder :=
    .iterate_last (.pure _ _)
  unfold writeText
  by_cases hne : Text.encode text = []
  · rw [hne, Recorder.put_nil]
    exact hlast recorder
  · exact .iterate_next (writeSome_comesTo hne recorder) (hlast _)

theorem display_comesTo (label text : String) (recorder : Recorder) :
    Action.ComesTo Recorder.host (display label text) recorder (.returned ())
      (recorder.put (Text.encode text)) :=
  (writeText_comesTo text recorder).bind (.pure _ _)

theorem display_tandem {recorder recorder' : Recorder} (h : recorder.Abreast view known recorder')
    (label text : String) : Action.Tandem view known Eq (display label text) recorder
      (display label text) recorder' :=
  .returned (display_comesTo ..) (display_comesTo ..) ⟨rfl, h.put _⟩

end TinyShell
