import TinyShell.Proofs.Action.Advance
import TinyShell.Proofs.Action.Contract
import TinyShell.Proofs.Action.Feed

/-!
# What a process hears

`heard fd` are the replies to the reads of a descriptor, in order. An action without a read hears
nothing (`Action.Calls.heard_eq_nil`), and under a steady host it hears what that host feeds
(`Action.Calls.heard_feed`).

`Action.Listens`: the action ends, or it goes on to hear as many replies as one likes. So it
advances from one read to the next (`Action.listens_iff`).
-/

namespace TinyShell

variable {σ α β : Type} {fd : Descriptor}

/-- Any read. -/
def Request.isRead : Request → Bool
  | .read .. => true
  | _ => false

theorem Request.isRead_of_isOffhand {request : Request} (h : request.isOffhand) :
    request.isRead = false := by
  cases request <;> first | rfl | cases h

/-- The reply to a read of this descriptor. -/
def Move.heard? (fd : Descriptor) : Move σ → Option Reading
  | .asked _ (.read other _) reply => if other = fd then some reply else none
  | _ => none

/-- The replies to the reads of a descriptor. -/
def heard (fd : Descriptor) (moves : List (Move σ)) : List Reading :=
  moves.filterMap (Move.heard? fd)

/-- A read of the input that found more than its end. -/
def Move.findsInput (move : Move σ) : Bool := (move.heard? .input).any fun reply => !reply.isEnd

@[simp]
theorem heard_nil : heard fd ([] : List (Move σ)) = [] := rfl

@[simp]
theorem heard_append (first second : List (Move σ)) :
    heard fd (first ++ second) = heard fd first ++ heard fd second := List.filterMap_append

theorem heard_cons_none {move : Move σ} (h : move.heard? fd = none) (rest : List (Move σ)) :
    heard fd (move :: rest) = heard fd rest := List.filterMap_cons_none h

theorem heard_cons_read (before : σ) (count : Nat) (reply : Reading) (rest : List (Move σ)) :
    heard fd (.asked before (.read fd count) reply :: rest) = reply :: heard fd rest :=
  List.filterMap_cons_some (if_pos rfl)

theorem heard_asked {before : σ} {request : Request} {reply : request.Reply}
    (h : request.isRead = false) : (Move.asked before request reply).heard? fd = none := by
  cases request <;> first | rfl | cases h

namespace Action

/-- The rules for calls that may be anything but reads. -/
theorem Calls.shellRules {requests : Request → Prop} {children : Action Status → Prop}
    (hr : ∀ request, request.isRead = false → requests request)
    (hc : ∀ child, Child.Body child → children child) :
    Shell.Rules (@Calls requests children) where
  toRules := loopRules.mono fun _ h => hr _ (Request.isRead_of_isOffhand h.isOffhand)
  exit := .exit
  display := .display fun _ => hr _ rfl
  fork hb := .fork (hc _ hb)
  waitFor _ := loopRules.waitFor (hr _ rfl) fun _ => hr _ rfl
  poll _ := loopRules.poll (hr _ rfl) (fun _ => hr _ rfl) (.display fun _ => hr _ rfl)

/-! ## Without reads -/

theorem Calls.heard_eq_nil {children : Action Status → Prop} {action : Action α}
    (h : Calls (·.isRead = false) children action) (host : Host σ) (bound : Nat) (state : σ) :
    heard fd (trace host bound action state).moves = [] := by
  refine List.filterMap_eq_nil_iff.2 fun move hm => ?_
  have hallowed := h.moves host bound state move hm
  cases move with
  | asked => exact heard_asked hallowed
  | executed | forked => rfl

/-! ## Listening -/

/-- The action ends, or hears any number of replies if one looks far enough. -/
def Listens (host : Host σ) (fd : Descriptor) (action : Action α) (state : σ) : Prop :=
  ∀ count, ∃ least, ∀ bound, least ≤ bound →
    (trace host bound action state).result.isSome ∨
      count ≤ (heard fd (trace host bound action state).moves).length

variable {host : Host σ}

theorem length_heard (moves : List (Move σ)) :
    (heard fd moves).length = moves.countP fun move => (move.heard? fd).isSome :=
  List.length_filterMap_eq_countP

/-- To listen is to go on from one read to the next. -/
theorem listens_iff {action : Action α} {state : σ} : Listens host fd action state ↔
    Advances host (fun move => (move.heard? fd).isSome) action state := by
  simp only [Listens, Advances, length_heard]

/-! ## Under a steady host -/

/-- The run hears the first replies of this feed, and if it ends the others are left. -/
structure Fed (host : Host σ) (fd : Descriptor) (feed : Nat → Reading) (run : Run σ α) : Prop where
  heard : ∀ i reply, (heard fd run.moves)[i]? = some reply → reply = feed i
  left : ∀ ending last, run.result = some (ending, last) →
    host.feed fd last = fun i => feed (i + (TinyShell.heard fd run.moves).length)

namespace Fed

variable {feed : Nat → Reading}

theorem pure {value : α} {state : σ} (h : host.feed fd state = feed) :
    Fed host fd feed (.pure value state) := by
  refine ⟨by simp [Run.pure], fun ending last hr => ?_⟩
  obtain ⟨-, rfl⟩ : _ ∧ state = last := by simpa [Run.pure] using hr
  exact h

/-- What follows goes on where the first part stopped. -/
theorem after {run : Run σ α} {earlier : List (Move σ)}
    (he : ∀ i reply, (TinyShell.heard fd earlier)[i]? = some reply → reply = feed i)
    (h : Fed host fd (fun i => feed (i + (TinyShell.heard fd earlier).length)) run) :
    Fed host fd feed (run.after earlier) := by
  refine ⟨fun i reply hi => ?_, fun ending last hr => ?_⟩
  · rw [Run.after_moves, heard_append] at hi
    rcases Nat.lt_or_ge i (TinyShell.heard fd earlier).length with hlt | hge
    · rw [List.getElem?_append_left hlt] at hi
      exact he i reply hi
    · rw [List.getElem?_append_right hge] at hi
      rw [h.heard _ reply hi, Nat.sub_add_cancel hge]
  · rw [h.left ending last hr, Run.after_moves, heard_append, List.length_append]
    exact funext fun i => congrArg feed (by omega)

theorem bind {run : Run σ α} {next : α → σ → Run σ β} (h : Fed host fd feed run)
    (hn : ∀ value last, Fed host fd (host.feed fd last) (next value last)) :
    Fed host fd feed (run.bind next) := by
  obtain ⟨moves, result⟩ := run
  rcases result with _ | ⟨value | status, last⟩
  · exact ⟨h.heard, nofun⟩
  · refine .after h.heard ?_
    have hrest := hn value last
    rwa [h.left _ last rfl] at hrest
  · refine ⟨h.heard, fun ending last' hr => ?_⟩
    obtain ⟨-, rfl⟩ : _ ∧ last = last' := by simpa [Run.bind] using hr
    exact h.left _ last rfl

theorem after_silent {run : Run σ α} {move : Move σ} (hm : move.heard? fd = none)
    (h : Fed host fd feed run) : Fed host fd feed (run.after [move]) := by
  have hnone : TinyShell.heard fd [move] = [] := heard_cons_none hm []
  exact .after (by simp [hnone]) (by simpa [hnone] using h)

theorem after_read {run : Run σ α} {state : σ}
    (h : Fed host fd (host.feed fd (host.answer (.read fd 1) state).2) run) :
    Fed host fd (host.feed fd state)
      (run.after [.asked state (.read fd 1) (host.answer (.read fd 1) state).1]) := by
  have hone := @heard_cons_read σ fd state 1 (host.answer (.read fd 1) state).1 []
  refine .after (fun i reply hi => ?_) ?_
  · rw [hone] at hi
    obtain ⟨rfl, rfl⟩ : i = 0 ∧ (host.answer (.read fd 1) state).1 = reply := by
      rcases i with _ | i
      · exact ⟨rfl, by simpa using hi⟩
      · simp at hi
    rfl
  · rw [hone]
    exact h

theorem rules : Run.Rules fun state run => Fed host fd (host.feed fd state) run where
  cut _ := ⟨by simp, nofun⟩
  pure _ _ := .pure rfl
  bind := .bind

end Fed

/-- What is done offhand leaves the feed as it is. -/
theorem Offhand.feed {action : Action α} (h : Offhand action) (hs : host.Steady fd) {bound : Nat}
    {state last : σ} {ending : Ending α}
    (hr : (trace host bound action state).result = some (ending, last)) :
    host.feed fd last = host.feed fd state := by
  induction h generalizing state with
  | done | exit =>
    obtain ⟨-, rfl⟩ : _ ∧ state = last := by simpa [trace, Run.pure] using hr
    rfl
  | @ask request next ho _ ih =>
    rw [ih _ hr, hs.answer]
    rintro other count rfl
    cases ho
  | @exec program argv next _ ih =>
    have hafter := hs.exec program argv state
    rcases he : host.exec program argv state with ⟨errno | status, state'⟩ <;> rw [he] at hafter
    · rw [trace_exec_error he] at hr
      rw [ih errno hr, hafter]
    · rw [trace_exec_ok he] at hr
      obtain ⟨-, rfl⟩ : _ ∧ state' = last := by simpa using hr
      exact hafter
  | @note text next _ ih => rw [ih hr, hs.note]

/-- All reads are of one byte, and of this descriptor. -/
def Sips (fd : Descriptor) (request : Request) : Prop :=
  ∀ other count, request = .read other count → other = fd ∧ count = 1

/-- A process that reads byte by byte, and whose children do not read, hears what a steady host
feeds. -/
theorem Calls.heard_feed {action : Action α} (h : Calls (Sips fd) Offhand action)
    (hs : host.Steady fd) (bound : Nat) (state : σ) :
    Fed host fd (host.feed fd state) (trace host bound action state) := by
  induction h generalizing state with
  | done => exact .pure rfl
  | exit status =>
    refine ⟨by simp [trace], fun ending last hr => ?_⟩
    obtain ⟨-, rfl⟩ : _ ∧ state = last := by simpa [trace] using hr
    rfl
  | @ask _ request next hsip _ ih =>
    rw [trace_ask]
    by_cases hread : request.isRead = false
    · have hafter : host.feed fd (host.answer request state).2 = host.feed fd state := by
        refine hs.answer request state ?_
        rintro other count rfl
        cases hread
      refine .after_silent (heard_asked hread) ?_
      exact hafter ▸ ih _ _
    · obtain ⟨rfl⟩ : request = .read fd 1 := by
        cases request with
        | read other count =>
          obtain ⟨rfl, rfl⟩ := hsip other count rfl
          rfl
        | _ => exact absurd rfl hread
      exact .after_read (ih _ _)
  | @exec _ program argv next _ ih =>
    have hafter := hs.exec program argv state
    rcases he : host.exec program argv state with ⟨errno | status, state'⟩ <;> rw [he] at hafter
    · rw [trace_exec_error he]
      exact .after_silent rfl (hafter ▸ ih errno state')
    · rw [trace_exec_ok he]
      have hnone : heard fd [Move.executed state program argv (.ok status)] = [] :=
        heard_cons_none rfl []
      refine ⟨by simp [hnone], fun ending last hr => ?_⟩
      rw [hnone]
      obtain ⟨-, rfl⟩ : _ ∧ state' = last := by simpa using hr
      exact hafter
  | @spawn _ child next hc _ ih =>
    have hborn := hs.fork state
    rcases hf : host.fork state with ⟨errno | pid, state'⟩ <;> rw [hf] at hborn
    · rw [trace_spawn_error hf]
      exact .after_silent rfl (hborn ▸ ih _ state')
    · obtain ⟨⟨ending, after⟩, hr⟩ :=
        Option.isSome_iff_exists.1 (hc.loopless.isSome host bound state')
      rw [trace_spawn_ok hf hr]
      have hjoin : host.feed fd (host.join state' after pid ending.status) =
          host.feed fd state := by
        rcases hs.join state' after pid ending.status with h | h
        · exact h.trans hborn
        · exact (h.trans (hc.feed hs hr)).trans hborn
      exact .after_silent rfl (hjoin ▸ ih _ _)
  | @note _ text next _ ih => exact hs.note text state ▸ ih (host.note text state)
  | loop _ _ ihb ih => exact Fed.rules.loop ihb ih _ state

end Action

end TinyShell
