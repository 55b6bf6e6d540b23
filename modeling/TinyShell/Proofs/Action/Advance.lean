import TinyShell.Proofs.Action.Trace

/-!
# Actions that end or go on

`Action.Advances`: the action ends, or it makes as many marked moves as one likes. It may take its
time between two of them, but it does not get stuck there. So an action with a limited number of
marked moves ends (`Action.Advances.ends`).

There is one rule for each way of putting actions together. A loop advances if its rounds do and
each of them either makes a marked move or comes closer to the end of the loop
(`Action.Advances.iterate`). That the marked moves are limited comes from the host, if it has a
stock of them (`Host.Stocks.limited`).
-/

namespace TinyShell.Action

variable {σ τ α β : Type} {host : Host σ} {marked : Move σ → Bool}

/-- The action ends, or makes any number of marked moves if one looks far enough. -/
def Advances (host : Host σ) (marked : Move σ → Bool) (action : Action α) (state : σ) : Prop :=
  ∀ count, ∃ least, ∀ bound, least ≤ bound →
    (trace host bound action state).result.isSome ∨
      count ≤ (trace host bound action state).moves.countP marked

/-- However long the action goes on, it makes only so many marked moves. -/
def Limited (host : Host σ) (marked : Move σ → Bool) (action : Action α) (state : σ) : Prop :=
  ∃ most, ∀ bound, (trace host bound action state).moves.countP marked ≤ most

theorem Limited.or {other : Move σ → Bool} {action : Action α} {state : σ}
    (h : Limited host marked action state) (h' : Limited host other action state) :
    Limited host (fun move => marked move || other move) action state := by
  obtain ⟨most, hm⟩ := h
  obtain ⟨most', hm'⟩ := h'
  have hor (moves : List (Move σ)) : moves.countP (fun move => marked move || other move) ≤
      moves.countP marked + moves.countP other := by
    induction moves with
    | nil => exact Nat.le_refl 0
    | cons move rest ih =>
      simp only [List.countP_cons]
      cases marked move <;> cases other move <;> simp <;> omega
  exact ⟨most + most', fun bound =>
    Nat.le_trans (hor _) (Nat.add_le_add (hm bound) (hm' bound))⟩

theorem Ends.advances {action : Action α} {state : σ} (h : Ends host action state) :
    Advances host marked action state := by
  intro count
  obtain ⟨least, hl⟩ := h.eventually
  exact ⟨least, fun bound hb => .inl (hl bound hb)⟩

namespace Advances

/-- What an action that does not end goes on to do. -/
theorem marked_of_not_ends {action : Action α} {state : σ}
    (h : Advances host marked action state) (hn : ¬Ends host action state) (count : Nat) :
    ∃ least, ∀ bound, least ≤ bound → (trace host bound action state).result = none ∧
      count ≤ (trace host bound action state).moves.countP marked := by
  obtain ⟨least, hl⟩ := h count
  refine ⟨least, fun bound hb => ?_⟩
  have hnone : ¬(trace host bound action state).result.isSome := fun hs => hn ⟨bound, hs⟩
  exact ⟨by simpa using hnone, (hl bound hb).resolve_left hnone⟩

theorem ends {action : Action α} {state : σ} (h : Advances host marked action state)
    (hl : Limited host marked action state) : Ends host action state := by
  obtain ⟨most, hm⟩ := hl
  refine Classical.byContradiction fun hn => ?_
  obtain ⟨least, hl⟩ := h.marked_of_not_ends hn (most + 1)
  exact absurd (hm least) (Nat.not_le.2 (hl least (Nat.le_refl least)).2)

theorem bind {action : Action α} {next : α → Action β} {state : σ}
    (h : Advances host marked action state)
    (hn : ∀ bound value after,
      (trace host bound action state).result = some (.returned value, after) →
        Advances host marked (next value) after) :
    Advances host marked (action >>= next) state := by
  intro count
  by_cases he : Ends host action state
  · obtain ⟨first, hf⟩ := he
    obtain ⟨⟨ending, after⟩, hr⟩ := Option.isSome_iff_exists.1 hf
    have hsame (bound : Nat) (hb : first ≤ bound) :
        trace host bound action state = trace host first action state := trace_mono hb hf
    rcases ending with value | status
    · obtain ⟨second, hs⟩ := hn first value after hr count
      refine ⟨max first second, fun bound hb => ?_⟩
      rw [trace_bind, hsame bound (by omega), Run.bind_of_returned hr, Run.after_result,
        Run.after_moves, List.countP_append]
      exact (hs bound (by omega)).imp_right fun hlen => by omega
    · refine ⟨first, fun bound hb => .inl ?_⟩
      rw [trace_bind, hsame bound hb, Run.bind_of_exited hr]
      rfl
  · obtain ⟨least, hl⟩ := h.marked_of_not_ends he count
    refine ⟨least, fun bound hb => .inr ?_⟩
    obtain ⟨hnone, hlen⟩ := hl bound hb
    rw [trace_bind, Run.bind_of_none hnone]
    exact hlen

end Advances

/-! ## Loops -/

/-- The rounds of a loop come to an end, or to so many marked moves. -/
def RoundsReach (host : Host σ) (marked : Move σ → Bool) (body : τ → Action (τ ⊕ β)) (count : Nat)
    (start : τ) (state : σ) : Prop :=
  ∃ least, ∀ limit bound, least ≤ limit → least ≤ bound →
    let run := traceRounds (fun start state => trace host limit (body start) state) bound start
      state
    run.result.isSome ∨ count ≤ run.moves.countP marked

namespace RoundsReach

variable {body : τ → Action (τ ⊕ β)} {count first : Nat} {start : τ} {state after : σ}

/-- A round before others. -/
theorem prepend {next : τ} (hr : (trace host first (body start) state).result =
      some (.returned (.inl next), after))
    (h : RoundsReach host marked body count next after) :
    RoundsReach host marked body
      ((trace host first (body start) state).moves.countP marked + count) start state := by
  obtain ⟨second, hs⟩ := h
  refine ⟨max first second + 1, fun limit bound hlimit hbound => ?_⟩
  obtain ⟨more, rfl⟩ : ∃ more, bound = more + 1 := ⟨bound - 1, by omega⟩
  have hsame : trace host limit (body start) state = trace host first (body start) state :=
    trace_mono (by omega) (by rw [hr]; rfl)
  have hrest := hs limit more (by omega) (by omega)
  simp only [traceRounds, hsame, Run.bind_of_returned hr, Run.after_result, Run.after_moves,
    List.countP_append]
  exact hrest.imp_right fun hlen => by omega

/-- A round after which there is no other. -/
theorem last {ending : Ending (τ ⊕ β)}
    (hr : (trace host first (body start) state).result = some (ending, after))
    (hlast : ∀ next, ending ≠ .returned (.inl next)) :
    RoundsReach host marked body count start state := by
  refine ⟨first + 1, fun limit bound hlimit hbound => .inl ?_⟩
  obtain ⟨more, rfl⟩ : ∃ more, bound = more + 1 := ⟨bound - 1, by omega⟩
  have hsame : trace host limit (body start) state = trace host first (body start) state :=
    trace_mono (by omega) (by rw [hr]; rfl)
  rw [traceRounds, hsame, Run.bind, hr]
  rcases ending with (next | value) | status
  · exact absurd rfl (hlast next)
  · rfl
  · rfl

/-- A round that does not end. -/
theorem stuck (h : Advances host marked (body start) state)
    (hn : ¬Ends host (body start) state) : RoundsReach host marked body count start state := by
  obtain ⟨least, hl⟩ := h.marked_of_not_ends hn count
  refine ⟨least + 1, fun limit bound hlimit hbound => .inr ?_⟩
  obtain ⟨more, rfl⟩ : ∃ more, bound = more + 1 := ⟨bound - 1, by omega⟩
  obtain ⟨hnone, hlen⟩ := hl limit (by omega)
  rw [traceRounds, Run.bind_of_none hnone]
  exact hlen

theorem mono {less : Nat} (h : RoundsReach host marked body count start state)
    (hle : less ≤ count) : RoundsReach host marked body less start state := by
  obtain ⟨least, hl⟩ := h
  exact ⟨least, fun limit bound hlimit hbound =>
    (hl limit bound hlimit hbound).imp_right (Nat.le_trans hle)⟩

end RoundsReach

/-- A loop advances if each of its rounds does, and makes a marked move before the next one or
brings the loop closer to its end. -/
theorem Advances.iterate {body : τ → Action (τ ⊕ β)} (rank : τ → Nat)
    (hbody : ∀ start state, Advances host marked (body start) state)
    (hprogress : ∀ start state bound next after,
      (trace host bound (body start) state).result = some (.returned (.inl next), after) →
        0 < (trace host bound (body start) state).moves.countP marked ∨ rank next < rank start)
    (start : τ) (state : σ) : Advances host marked (Action.iterate body start) state := by
  suffices hrounds : ∀ count start state, RoundsReach host marked body count start state by
    intro count
    obtain ⟨least, hl⟩ := hrounds count start state
    refine ⟨least, fun bound hb => ?_⟩
    rw [trace_iterate]
    exact hl bound bound hb hb
  intro count
  -- on how many marked moves are still to come, and on the rank until the next of them
  induction count with
  | zero => exact fun _ _ => ⟨0, fun _ _ _ _ => .inr (Nat.zero_le _)⟩
  | succ count ih =>
    intro start
    induction hrank : rank start using Nat.strongRecOn generalizing start with
    | ind n ihr =>
      intro state
      subst hrank
      by_cases he : Ends host (body start) state
      · obtain ⟨first, hf⟩ := he
        obtain ⟨⟨ending, after⟩, hr⟩ := Option.isSome_iff_exists.1 hf
        rcases ending with (next | value) | status
        · rcases hprogress start state first next after hr with hpos | hlt
          · exact (RoundsReach.prepend hr (ih next after)).mono (by omega)
          · exact (RoundsReach.prepend hr (ihr (rank next) hlt next rfl after)).mono (by omega)
        · exact .last hr (by simp)
        · exact .last hr (by simp)
      · exact .stuck (hbody start state) he

end TinyShell.Action

/-! ## A stock of marked moves -/

namespace TinyShell

open TinyShell.Action (trace)

variable {σ α β : Type} {marked : Move σ → Bool} {stock : σ → Nat}

/-- Each marked move is taken from a stock, and nothing adds to it. -/
structure Host.Stocks (host : Host σ) (marked : Move σ → Bool) (stock : σ → Nat) : Prop where
  answer : ∀ request state, stock (host.answer request state).2 +
    (marked (.asked state request (host.answer request state).1)).toNat ≤ stock state
  exec : ∀ program argv state, stock (host.exec program argv state).2 +
    (marked (.executed state program argv (host.exec program argv state).1)).toNat ≤ stock state
  fork : ∀ state child, stock (host.fork state).2 +
    (marked (.forked state (host.fork state).1 child)).toNat ≤ stock state
  join : ∀ parent child pid status,
    stock (host.join parent child pid status) ≤ max (stock parent) (stock child)
  note : ∀ text state, stock (host.note text state) ≤ stock state

/-- The run takes its marked moves from so many, and leaves the others in stock. -/
structure Run.Draws (marked : Move σ → Bool) (stock : σ → Nat) (most : Nat) (run : Run σ α) :
    Prop where
  moves : run.moves.countP marked ≤ most
  left : ∀ ending last, run.result = some (ending, last) →
    run.moves.countP marked + stock last ≤ most

namespace Run.Draws

variable {most : Nat}

theorem ended {moves : List (Move σ)} {ending : Ending α} {last : σ}
    (h : moves.countP marked + stock last ≤ most) :
    Run.Draws marked stock most ⟨moves, some (ending, last)⟩ := by
  refine ⟨Nat.le_trans (Nat.le_add_right _ _) h, fun _ last' hr => ?_⟩
  obtain ⟨-, rfl⟩ : ending = _ ∧ last = last' := by simpa using hr
  exact h

theorem after {run : Run σ α} {earlier : List (Move σ)} {less : Nat}
    (h : run.Draws marked stock less) (he : earlier.countP marked + less ≤ most) :
    (run.after earlier).Draws marked stock most := by
  refine ⟨?_, fun ending last hr => ?_⟩
  · have hmoves := h.moves
    rw [Run.after_moves, List.countP_append]
    omega
  · have hleft := h.left ending last hr
    rw [Run.after_moves, List.countP_append]
    omega

theorem bind {run : Run σ α} {next : α → σ → Run σ β} (h : run.Draws marked stock most)
    (hn : ∀ value last, (next value last).Draws marked stock (stock last)) :
    (run.bind next).Draws marked stock most := by
  obtain ⟨moves, _ | ⟨value | status, last⟩⟩ := run
  · exact ⟨h.moves, nofun⟩
  · exact (hn value last).after (h.left _ last rfl)
  · exact ended (h.left _ last rfl)

theorem rules : Run.Rules fun state run => run.Draws marked stock (stock state) where
  cut _ := ⟨Nat.zero_le _, nofun⟩
  pure _ _ := ended (Nat.le_of_eq (Nat.zero_add _))
  bind := .bind

end Run.Draws

namespace Host.Stocks

variable {host : Host σ}

theorem draws (h : host.Stocks marked stock) (bound : Nat) (action : Action α) (state : σ) :
    (trace host bound action state).Draws marked stock (stock state) := by
  have hone (move : Move σ) {less most : Nat} (hm : less + (marked move).toNat ≤ most) :
      [move].countP marked + less ≤ most := by
    rw [List.countP_singleton]
    cases hmove : marked move <;> simp [hmove] at hm ⊢ <;> omega
  induction action generalizing state with
  | done | exit => exact .ended (Nat.le_of_eq (Nat.zero_add _))
  | ask request next ih => exact (ih _ _).after (hone _ (h.answer request state))
  | exec program argv next ih =>
    have hexec := h.exec program argv state
    rcases he : host.exec program argv state with ⟨errno | status, state'⟩ <;> rw [he] at hexec
    · rw [Action.trace_exec_error he]
      exact (ih errno state').after (hone _ hexec)
    · rw [Action.trace_exec_ok he]
      exact .ended (hone _ hexec)
  | spawn child next ihc ih =>
    have hfork := h.fork state
    rcases hf : host.fork state with ⟨errno | pid, born⟩ <;> simp only [hf] at hfork
    · rw [Action.trace_spawn_error hf]
      exact (ih _ born).after (hone _ (hfork []))
    · rcases hc : (trace host bound child born).result with _ | ⟨ending, gone⟩
      · rw [Action.trace_spawn_none hf hc]
        exact ⟨Nat.le_trans (Nat.le_add_right _ _) (hone _ (hfork _)), nofun⟩
      · rw [Action.trace_spawn_ok hf hc]
        refine (ih _ _).after (hone _ (Nat.le_trans (Nat.add_le_add_right ?_ _) (hfork _)))
        have hjoin := h.join born gone pid ending.status
        have hgone := (ihc born).left ending gone hc
        omega
  | note text next ih =>
    have hnote := h.note text state
    have hrest := ih (host.note text state)
    exact ⟨Nat.le_trans hrest.moves hnote,
      fun ending last hr => Nat.le_trans (hrest.left ending last hr) hnote⟩
  | loop body start next ihb ih => exact Run.Draws.rules.loop ihb ih start state

/-- There are no more marked moves than were in stock. -/
theorem limited (h : host.Stocks marked stock) (action : Action α) (state : σ) :
    Action.Limited host marked action state :=
  ⟨stock state, fun bound => (h.draws bound action state).moves⟩

end Host.Stocks

end TinyShell
