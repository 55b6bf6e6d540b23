import TinyShell.Proofs.Action.Doings

/-!
# Without heed to writes and closes

`Action.Heedless`: what the action does never depends on what comes of a write or of a close. So it
does the same on any two systems that agree in everything else (`Host.Agrees`), and comes to the
same (`Action.Heedless.same`), or goes on as far on the one as on the other if it never ends.

`Action.Copied` is one direction of this. It has one rule for each way of putting actions together,
and in each of them the second system is given enough rounds to write what the first one has
written.
-/

namespace TinyShell

open TinyShell.Action (trace traceRounds)

variable {σ τ α β : Type}

/-- From related states on, two systems answer all but writes and closes alike. A write makes no
difference to the other system, however it comes out; but none is interrupted for ever. -/
structure Host.Agrees (host : Host σ) (other : Host τ) (related : σ → τ → Prop) : Prop where
  answer : ∀ {request : Request} {state state'}, request.isHeeded → related state state' →
    (host.answer request state).1 = (other.answer request state').1 ∧
      related (host.answer request state).2 (other.answer request state').2
  close : ∀ {fd state state'}, related state state' →
    related (host.answer (.close fd) state).2 (other.answer (.close fd) state').2
  write : ∀ {fd bytes state state'}, related state state' →
    related (host.answer (.write fd bytes) state).2 state' ∧
      related state (other.answer (.write fd bytes) state').2
  settled : ∀ {fd bytes state state'}, related state state' →
    host.Settled fd bytes state ∧ other.Settled fd bytes state'
  exec : ∀ {program argv state state'}, related state state' →
    (host.exec program argv state).1 = (other.exec program argv state').1 ∧
      related (host.exec program argv state).2 (other.exec program argv state').2
  fork : ∀ {state state'}, related state state' →
    (host.fork state).1 = (other.fork state').1 ∧ related (host.fork state).2 (other.fork state').2
  join : ∀ {parent parent' child child' pid status}, related parent parent' →
    related child child' →
      related (host.join parent child pid status) (other.join parent' child' pid status)
  note : ∀ {line state state'}, related state state' →
    related (host.note line state) state' ∧ related state (other.note line state')

theorem Host.Agrees.symm {host : Host σ} {other : Host τ} {related : σ → τ → Prop}
    (h : host.Agrees other related) :
    other.Agrees host fun state' state => related state state' where
  answer hh hr := ⟨(h.answer hh hr).1.symm, (h.answer hh hr).2⟩
  close := h.close
  write hr := (h.write hr).symm
  settled hr := (h.settled hr).symm
  exec hr := ⟨(h.exec hr).1.symm, (h.exec hr).2⟩
  fork hr := ⟨(h.fork hr).1.symm, (h.fork hr).2⟩
  join := h.join
  note hr := (h.note hr).symm

/-! ## Runs -/

/-- What the first run did the second one did as well. If the first one ended, so did the second
one, in the same way and in a related state, without having done more. -/
structure Run.CopiedBy (related : σ → τ → Prop) (run : Run σ α) (run' : Run τ α) : Prop where
  sofar : doings run.moves <+: doings run'.moves
  ended : ∀ ending last, run.result = some (ending, last) → ∃ last',
    run'.result = some (ending, last') ∧ related last last' ∧
      doings run.moves = doings run'.moves ∧ Whole run.moves ∧ Whole run'.moves

namespace Run.CopiedBy

variable {related : σ → τ → Prop} {run : Run σ α} {run' : Run τ α}

theorem nothing : Run.CopiedBy related ⟨[], none⟩ run' := by
  refine ⟨?_, nofun⟩
  rw [doings, doingsFrom_nil]
  exact List.nil_prefix

/-- Runs that ended. -/
theorem both {moves : List (Move σ)} {moves' : List (Move τ)} {ending : Ending α} {last : σ}
    {last' : τ} (hd : doings moves = doings moves') (hw : Whole moves) (hw' : Whole moves')
    (h : related last last') :
    Run.CopiedBy related ⟨moves, some (ending, last)⟩ ⟨moves', some (ending, last')⟩ := by
  refine ⟨hd ▸ List.prefix_rfl, fun _ _ hr => ?_⟩
  obtain ⟨rfl, rfl⟩ : ending = _ ∧ last = _ := by simpa using hr
  exact ⟨last', rfl, h, hd, hw, hw'⟩

theorem pure {value : α} {state : σ} {state' : τ} (h : related state state') :
    (Run.pure value state).CopiedBy related (Run.pure value state') := both rfl .nil .nil h

theorem after {earlier : List (Move σ)} {earlier' : List (Move τ)}
    (hd : doings earlier = doings earlier') (hw : Whole earlier) (hw' : Whole earlier')
    (h : run.CopiedBy related run') :
    (run.after earlier).CopiedBy related (run'.after earlier') := by
  refine ⟨?_, fun ending last hr => ?_⟩
  · rw [Run.after_moves, Run.after_moves, hw, hw', hd]
    exact (List.prefix_append_right_inj _).2 h.sofar
  · obtain ⟨last', hr', hl, hsame, hrun, hrun'⟩ := h.ended ending last hr
    refine ⟨last', hr', hl, ?_, hw.append hrun, hw'.append hrun'⟩
    rw [Run.after_moves, Run.after_moves, hw, hw', hd, hsame]

/-- Sequels count only where both runs returned, which they do with the same value. -/
theorem bind {next : α → σ → Run σ β} {next' : α → τ → Run τ β} (h : run.CopiedBy related run')
    (hn : ∀ value last last', run.result = some (.returned value, last) →
      run'.result = some (.returned value, last') → related last last' →
        (next value last).CopiedBy related (next' value last')) :
    (run.bind next).CopiedBy related (run'.bind next') := by
  rcases hr : run.result with _ | ⟨value | status, last⟩
  · obtain ⟨more, hm⟩ := run'.moves_bind next'
    rw [Run.bind_of_none hr]
    refine ⟨?_, nofun⟩
    rw [hm]
    exact h.sofar.trans (doingsFrom_grows false _ more)
  · obtain ⟨last', hr', hl, hsame, hrun, hrun'⟩ := h.ended _ last hr
    rw [Run.bind_of_returned hr, Run.bind_of_returned hr']
    exact (hn value last last' hr hr' hl).after hsame hrun hrun'
  · obtain ⟨last', hr', hl, hsame, hrun, hrun'⟩ := h.ended _ last hr
    rw [Run.bind_of_exited hr, Run.bind_of_exited hr']
    exact both hsame hrun hrun' hl

end Run.CopiedBy

namespace Action

/-- What the action does on the first system within some rounds, it does on the second one within
enough of them. -/
def Copied (host : Host σ) (other : Host τ) (related : σ → τ → Prop) (action : Action α) (state : σ)
    (state' : τ) : Prop :=
  ∀ bound, ∃ least, ∀ more, least ≤ more →
    (trace host bound action state).CopiedBy related (trace other more action state')

variable {host : Host σ} {other : Host τ} {related : σ → τ → Prop} {action : Action α} {state : σ}
  {state' : τ}

/-- From some bound on, the second run goes on where the first one does, if this ends. -/
theorem Copied.settled (h : Copied host other related action state state') (bound : Nat) :
    ∃ least, (∀ more, least ≤ more →
        (trace host bound action state).CopiedBy related (trace other more action state')) ∧
      ∀ ending last, (trace host bound action state).result = some (ending, last) →
        ∃ last', related last last' ∧ ∀ more, least ≤ more →
          (trace other more action state').result = some (ending, last') := by
  obtain ⟨least, hl⟩ := h bound
  refine ⟨least, hl, fun ending last hr => ?_⟩
  obtain ⟨last', hr', hrel, -⟩ := (hl least (Nat.le_refl least)).ended ending last hr
  refine ⟨last', hrel, fun more hm => ?_⟩
  rw [trace_mono hm (by rw [hr']; rfl), hr']

theorem Copied.bind {next : α → Action β} (h : Copied host other related action state state')
    (hn : ∀ value last last', related last last' →
      Copied host other related (next value) last last') :
    Copied host other related (action >>= next) state state' := by
  intro bound
  obtain ⟨first, hf, hlast⟩ := h.settled bound
  simp only [trace_bind]
  rcases hr : (trace host bound action state).result with _ | ⟨value | status, last⟩
  · refine ⟨first, fun more hm => (hf more hm).bind fun _ _ _ hr' => ?_⟩
    rw [hr] at hr'
    cases hr'
  · obtain ⟨last', hrel, hr'⟩ := hlast _ last hr
    obtain ⟨second, hs⟩ := hn value last last' hrel bound
    refine ⟨max first second, fun more hm => ?_⟩
    refine (hf more (by omega)).bind fun value₂ l l' hl hl' _ => ?_
    obtain ⟨rfl, rfl⟩ : value = value₂ ∧ last = l := by simpa [hr] using hl
    obtain rfl : last' = l' := by simpa [hr' more (by omega)] using hl'
    exact hs more (by omega)
  · refine ⟨first, fun more hm => (hf more hm).bind fun _ _ _ hr' => ?_⟩
    rw [hr] at hr'
    cases hr'

/-- A loop is copied round by round. -/
theorem Copied.iterate {γ : Type} {body : γ → Action (γ ⊕ β)}
    (h : ∀ start state state', related state state' →
      Copied host other related (body start) state state') (start : γ)
    (hrel : related state state') :
    Copied host other related (Action.iterate body start) state state' := by
  suffices hrounds : ∀ limit count start state state', related state state' →
      ∃ least, ∀ limit' count', least ≤ limit' → least ≤ count' →
        (traceRounds (fun start state => trace host limit (body start) state) count start
          state).CopiedBy related
        (traceRounds (fun start state => trace other limit' (body start) state) count' start
          state') by
    intro bound
    obtain ⟨least, hl⟩ := hrounds bound bound start state state' hrel
    refine ⟨least, fun more hm => ?_⟩
    rw [trace_iterate, trace_iterate]
    exact hl more more hm hm
  intro limit count
  induction count with
  | zero => exact fun _ _ _ _ => ⟨0, fun _ _ _ _ => .nothing⟩
  | succ count ih =>
    intro start state state' hrel
    obtain ⟨first, hf, hlast⟩ := (h start state state' hrel).settled limit
    by_cases hnext : ∃ next last,
        (trace host limit (body start) state).result = some (.returned (.inl next), last)
    · obtain ⟨next, last, hr⟩ := hnext
      obtain ⟨last', hrel', hr'⟩ := hlast _ last hr
      obtain ⟨second, hs⟩ := ih next last last' hrel'
      refine ⟨max first second + 1, fun limit' count' hlimit hcount => ?_⟩
      obtain ⟨more, rfl⟩ : ∃ more, count' = more + 1 := ⟨count' - 1, by omega⟩
      refine (hf limit' (by omega)).bind fun value l l' hl hl' _ => ?_
      obtain ⟨rfl, rfl⟩ : .inl next = value ∧ last = l := by simpa [hr] using hl
      obtain rfl : last' = l' := by simpa [hr' limit' (by omega)] using hl'
      exact hs limit' more (by omega) (by omega)
    · refine ⟨first + 1, fun limit' count' hlimit hcount => ?_⟩
      obtain ⟨more, rfl⟩ : ∃ more, count' = more + 1 := ⟨count' - 1, by omega⟩
      refine (hf limit' (by omega)).bind fun value l l' hl hl' hrel' => ?_
      rcases value with next | value
      · exact absurd ⟨next, l, hl⟩ hnext
      · exact .pure hrel'

/-! ## Actions -/

/-- No step depends on what comes of a write or of a close. A text is displayed and forgotten. -/
inductive Heedless : {α : Type} → Action α → Prop
  | done {α : Type} (value : α) : Heedless (.done value)
  | exit {α : Type} (status : Status) : Heedless (.exit status : Action α)
  | ask {α : Type} {request : Request} {next : request.Reply → Action α} : request.isHeeded →
    (∀ reply, Heedless (next reply)) → Heedless (.ask request next)
  | close {α : Type} (fd : Descriptor) {next : Action α} : Heedless next →
    Heedless (.ask (.close fd) fun _ => next)
  | exec {α : Type} {program : String} {argv : List String} {next : Errno → Action α} :
    (∀ errno, Heedless (next errno)) → Heedless (.exec program argv next)
  | spawn {α : Type} {child : Action Status} {next : Except Errno Pid → Action α} :
    Loopless child → Heedless child → (∀ result, Heedless (next result)) →
      Heedless (.spawn child next)
  | note {α : Type} {text : String} {next : Action α} : Heedless next → Heedless (.note text next)
  | display {α : Type} (label text : String) {next : Action α} : Heedless next →
    Heedless (display label text >>= fun _ => next)
  | loop {α γ δ : Type} {body : γ → Action (γ ⊕ δ)} {start : γ} {next : δ → Action α} :
    (∀ start, Heedless (body start)) → (∀ value, Heedless (next value)) →
      Heedless (.loop body start next)

namespace Heedless

theorem pure (value : α) : Heedless (pure value) := .done value

theorem bind {next : α → Action β} (h : Heedless action) (hn : ∀ value, Heedless (next value)) :
    Heedless (action >>= next) := by
  induction h with
  | done value => exact hn value
  | exit status => exact .exit status
  | ask hh _ ih => exact .ask hh fun reply => ih reply hn
  | close fd _ ih => exact .close fd (ih hn)
  | exec _ ih => exact .exec fun errno => ih errno hn
  | spawn hl hc _ _ ih => exact .spawn hl hc fun result => ih result hn
  | note _ ih => exact .note (ih hn)
  | display label text _ ih =>
    rw [Behavior.bind_assoc]
    exact .display label text (ih hn)
  | loop hb _ _ ih => exact .loop hb fun value => ih value hn

theorem call {request : Request} (h : request.isHeeded) : Heedless (call request) := .ask h .done

theorem log (text : String) : Heedless (log text) := .note (.done ())

theorem fork {child : Action Status} (hl : Loopless child) (h : Heedless child) :
    Heedless (fork child) := .spawn hl h .done

theorem display_last (label text : String) : Heedless (TinyShell.display label text) := by
  rw [← Behavior.bind_done (TinyShell.display label text)]
  exact .display label text (.pure ())

theorem loopRules : LoopRules (fun _ => True) @Heedless where
  pure := .pure
  bind := .bind
  log := .log
  call hh _ := .call hh
  close _ hn := .close _ hn
  iterate h _ := .loop h .done

end Heedless

/-- However the writes of a text come out, it is offered and forgotten. -/
theorem display_copied (h : host.Agrees other related) (label text : String)
    (hrel : related state state') :
    Copied host other related (display label text) state state' := by
  have hsettles : other.SettlesOn fun state' => related state state' :=
    ⟨fun _ _ _ hr => (h.settled hr).2, fun _ _ _ hr => (h.write hr).2⟩
  obtain ⟨least, hl⟩ := (display_ends hsettles label text hrel).eventually
  refine fun bound => ⟨least, fun more hm => ?_⟩
  obtain ⟨hsofar, hended⟩ := @display_doings σ host bound label text state
  obtain ⟨-, hended'⟩ := @display_doings τ other more label text state'
  obtain ⟨hsame', hwhole'⟩ := hended' (hl more hm)
  obtain ⟨⟨ending', last'⟩, hr'⟩ := Option.isSome_iff_exists.1 (hl more hm)
  refine ⟨hsame'.symm ▸ hsofar, fun ending last hr => ?_⟩
  obtain ⟨rfl, hleft⟩ := @display_keeps _ _ (fun state => related state state')
    (fun _ _ hr => (h.write hr).1) (fun _ _ hr => (h.note hr).1) _ _ _ _ _ _ hrel hr
  obtain ⟨rfl, hboth⟩ := @display_keeps _ _ (fun state' => related last state')
    (fun _ _ hr => (h.write hr).2) (fun _ _ hr => (h.note hr).2) _ _ _ _ _ _ hleft hr'
  obtain ⟨hsame, hwhole⟩ := hended (by rw [hr]; rfl)
  exact ⟨last', hr', hboth, hsame.trans hsame'.symm, hwhole, hwhole'⟩

/-- Such an action is copied on any system that agrees. -/
theorem Heedless.copied (h : host.Agrees other related) (ha : Heedless action)
    (hrel : related state state') : Copied host other related action state state' := by
  induction ha generalizing state state' with
  | done value => exact fun bound => ⟨0, fun more _ => .pure hrel⟩
  | exit status => exact fun bound => ⟨0, fun more _ => .both rfl .nil .nil hrel⟩
  | @ask _ request next hh _ ih =>
    obtain ⟨hreply, hafter⟩ := h.answer hh hrel
    intro bound
    obtain ⟨least, hl⟩ := ih (host.answer request state).1 hafter bound
    refine ⟨least, fun more hm => ?_⟩
    rw [trace_ask, trace_ask, ← hreply]
    exact (hl more hm).after ((doings_asked hh).trans (doings_asked hh).symm)
      (.single (goesOn_asked hh)) (.single (goesOn_asked hh))
  | close fd _ ih =>
    intro bound
    obtain ⟨least, hl⟩ := ih (h.close hrel) bound
    exact ⟨least, fun more hm => (hl more hm).after rfl (.single rfl) (.single rfl)⟩
  | @exec _ program argv next _ ih =>
    obtain ⟨hresult, hafter⟩ := @Host.Agrees.exec _ _ _ _ _ h program argv _ _ hrel
    intro bound
    rcases he : host.exec program argv state with ⟨errno | status, last⟩ <;>
      rcases he' : other.exec program argv state' with ⟨errno' | status', last'⟩ <;>
      rw [he, he'] at hresult hafter <;> cases hresult
    · obtain ⟨least, hl⟩ := ih errno hafter bound
      refine ⟨least, fun more hm => ?_⟩
      rw [trace_exec_error he, trace_exec_error he']
      exact (hl more hm).after rfl (.single rfl) (.single rfl)
    · refine ⟨0, fun more _ => ?_⟩
      rw [trace_exec_ok he, trace_exec_ok he']
      exact .both rfl (.single rfl) (.single rfl) hafter
  | @spawn _ child next hloop _ _ ihc ih =>
    obtain ⟨hresult, hborn⟩ := h.fork hrel
    intro bound
    rcases hf : host.fork state with ⟨errno | pid, born⟩ <;>
      rcases hf' : other.fork state' with ⟨errno' | pid', born'⟩ <;>
      rw [hf, hf'] at hresult hborn <;> cases hresult
    · obtain ⟨least, hl⟩ := ih (.error errno) hborn bound
      refine ⟨least, fun more hm => ?_⟩
      rw [trace_spawn_error hf, trace_spawn_error hf']
      exact (hl more hm).after rfl (.single rfl) (.single rfl)
    · -- the child ends under any bound, so that all of it is copied
      obtain ⟨first, hfirst, hlast⟩ := (ihc hborn).settled bound
      obtain ⟨⟨ending, gone⟩, hc⟩ := Option.isSome_iff_exists.1 (hloop.isSome host bound born)
      obtain ⟨gone', hgone, hc'⟩ := hlast ending gone hc
      obtain ⟨second, hs⟩ := ih (.ok pid) (h.join hborn hgone) bound
      refine ⟨max first second, fun more hm => ?_⟩
      rw [trace_spawn_ok hf hc, trace_spawn_ok hf' (hc' more (by omega))]
      obtain ⟨_, _, _, hsame, -⟩ := (hfirst more (by omega)).ended ending gone hc
      refine (hs more (by omega)).after ?_ (.single rfl) (.single rfl)
      exact congrArg (fun child => [Doing.forked (.ok pid) child]) hsame
  | note _ ih => exact ih (h.note (h.note hrel).1).2
  | display label text _ ih =>
    exact (display_copied h label text hrel).bind fun _ _ _ hr => ih hr
  | @loop _ _ _ body start next _ _ ihb ih =>
    change Copied host other related (Action.iterate body start >>= next) state state'
    exact (Copied.iterate (fun start _ _ hr => ihb start hr) start hrel).bind
      fun value _ _ hr => ih value hr

end Action

/-! ## Both ways -/

/-- All that the first run did the second one did as well. If the first one ended, so did the second
one, in the same way and without having done more. -/
structure Run.Repeats (run : Run σ α) (run' : Run τ α) : Prop where
  sofar : doings run.moves <+: doings run'.moves
  ended : ∀ ending last, run.result = some (ending, last) →
    (∃ last', run'.result = some (ending, last')) ∧ doings run'.moves = doings run.moves

theorem Run.CopiedBy.repeats {related : σ → τ → Prop} {run : Run σ α} {run' : Run τ α}
    (h : run.CopiedBy related run') : run.Repeats run' := by
  refine ⟨h.sofar, fun ending last hr => ?_⟩
  obtain ⟨last', hr', -, hsame, -⟩ := h.ended ending last hr
  exact ⟨⟨last', hr'⟩, hsame.symm⟩

namespace Action

/-- The action does the same on both systems and comes to the same. If it never ends on one of them,
it goes on for ever on the other as well, and does there all that it does here. -/
structure Same (host : Host σ) (other : Host τ) (action : Action α) (state : σ) (state' : τ) :
    Prop where
  there : ∀ bound, ∃ least, ∀ more, least ≤ more →
    (trace host bound action state).Repeats (trace other more action state')
  back : ∀ bound, ∃ least, ∀ more, least ≤ more →
    (trace other bound action state').Repeats (trace host more action state)

theorem Heedless.same {host : Host σ} {other : Host τ} {related : σ → τ → Prop} {action : Action α}
    {state : σ} {state' : τ} (ha : Heedless action) (h : host.Agrees other related)
    (hrel : related state state') : Same host other action state state' where
  there bound := by
    obtain ⟨least, hl⟩ := ha.copied h hrel bound
    exact ⟨least, fun more hm => (hl more hm).repeats⟩
  back bound := by
    obtain ⟨least, hl⟩ := @copied _ _ _ other host _ _ _ _ h.symm ha hrel bound
    exact ⟨least, fun more hm => (hl more hm).repeats⟩

end Action

end TinyShell
