import TinyShell.Proofs.Action.Rules
import TinyShell.Proofs.Shell.Write

/-!
# What a process does

`doings` is what a trace shows of a process apart from how its writes and closes come out: the calls
in order, with what came of the others. A text that is written is shown once, by its first write,
however many it takes (`display_doings`).
-/

namespace TinyShell

open Text (Bytes)
open TinyShell.Action (trace)

variable {σ : Type}

/-- What a process does, with what comes of it unless this is of a write or a close. -/
inductive Doing where
  | asked (request : Request) (reply : request.Reply)
  | closed (fd : Descriptor)
  /-- A text is offered, all of it. -/
  | said (fd : Descriptor) (bytes : Bytes)
  | executed (program : String) (argv : List String) (result : Except Errno Status)
  | forked (result : Except Errno Pid) (child : List Doing)

/-- A write after which its text goes on: it was interrupted, or took a part of the bytes. -/
def Move.goesOn : Move σ → Bool
  | .asked _ (.write ..) (.error .eintr) => true
  | .asked _ (.write _ bytes) (.ok taken) => 0 < taken && taken < bytes.length
  | _ => false

mutual

/-- What is shown by a move. In the midst of a text a write shows nothing new. -/
def Move.doing (midway : Bool) : Move σ → List Doing
  | .asked _ (.write fd bytes) _ => if midway then [] else [.said fd bytes]
  | .asked _ (.close fd) _ => [.closed fd]
  | .asked _ request reply => [.asked request reply]
  | .executed _ program argv result => [.executed program argv result]
  | .forked _ result child => [.forked result (doingsFrom false child)]

def doingsFrom (midway : Bool) : List (Move σ) → List Doing
  | [] => []
  | move :: rest => move.doing midway ++ doingsFrom move.goesOn rest

end

/-- What is done in a trace. -/
abbrev doings (moves : List (Move σ)) : List Doing := doingsFrom false moves

theorem doingsFrom_nil (midway : Bool) : doingsFrom midway ([] : List (Move σ)) = [] := by
  rw [doingsFrom]

theorem doingsFrom_cons (midway : Bool) (move : Move σ) (rest : List (Move σ)) :
    doingsFrom midway (move :: rest) = move.doing midway ++ doingsFrom move.goesOn rest := by
  rw [doingsFrom]

/-- What is done later adds to what was done. -/
theorem doingsFrom_grows (midway : Bool) (moves more : List (Move σ)) :
    doingsFrom midway moves <+: doingsFrom midway (moves ++ more) := by
  induction moves generalizing midway with
  | nil =>
    rw [doingsFrom_nil]
    exact List.nil_prefix
  | cons move rest ih =>
    rw [List.cons_append, doingsFrom_cons, doingsFrom_cons]
    exact (List.prefix_append_right_inj _).2 (ih _)

/-- No text goes on after these moves. -/
def Whole (moves : List (Move σ)) : Prop :=
  ∀ more, doings (moves ++ more) = doings moves ++ doings more

namespace Whole

variable {moves others : List (Move σ)}

theorem nil : Whole ([] : List (Move σ)) := fun more => by
  rw [doings, doings, doingsFrom_nil, List.nil_append, List.nil_append]

theorem append (h : Whole moves) (h' : Whole others) : Whole (moves ++ others) := fun more => by
  rw [List.append_assoc, h, h', h, List.append_assoc]

theorem single {move : Move σ} (h : move.goesOn = false) : Whole [move] := fun more => by
  simp only [doings, List.singleton_append, doingsFrom_cons, doingsFrom_nil, h, List.append_nil]

end Whole

theorem goesOn_asked {before : σ} {request : Request} {reply : request.Reply}
    (h : request.isHeeded) : (Move.asked before request reply).goesOn = false := by
  cases request <;> first | rfl | cases h

theorem doings_asked {before : σ} {request : Request} {reply : request.Reply}
    (h : request.isHeeded) :
    doings [Move.asked before request reply] = [.asked request reply] := by
  cases request <;> first | rfl | cases h

/-! ## Texts -/

/-- What is shown of a text. An empty one takes no call, and in the midst of one there is nothing
more to show. -/
def Doing.text (midway : Bool) (fd : Descriptor) (bytes : Bytes) : List Doing :=
  if midway ∨ bytes = [] then [] else [.said fd bytes]

theorem goesOn_of_inl {before : σ} {fd : Descriptor} {bytes next : Bytes}
    {reply : Except Errno Nat} (hne : bytes ≠ []) (h : writeOutcome bytes reply = .inl next) :
    (Move.asked before (.write fd bytes) reply).goesOn = !next.isEmpty := by
  rcases writeOutcome_eq_inl h with ⟨rfl, rfl⟩ | ⟨taken, rfl, rfl⟩
  · simpa [Move.goesOn] using hne
  · rw [Move.goesOn, Bool.eq_iff_iff]
    simp [List.drop_eq_nil_iff]

theorem goesOn_of_inr {before : σ} {fd : Descriptor} {bytes : Bytes} {reply : Except Errno Nat}
    {result : Except Errno Unit} (h : writeOutcome bytes reply = .inr result) :
    (Move.asked before (.write fd bytes) reply).goesOn = false := by
  rcases reply with errno | _ | taken
  · cases errno <;> first | rfl | cases h
  · rfl
  · cases h

section
variable (host : Host σ) (fd : Descriptor) (limit : Nat)

/-- A write, and what is left to write. -/
theorem writeRounds_succ (bound : Nat) {bytes : Bytes} (hne : bytes ≠ []) (state : σ) :
    writeRounds host fd limit (bound + 1) bytes state =
      (match writeOutcome bytes (host.answer (.write fd bytes) state).1 with
        | .inl next =>
          writeRounds host fd limit bound next (host.answer (.write fd bytes) state).2
        | .inr result => .pure result (host.answer (.write fd bytes) state).2).after
          [.asked state (.write fd bytes) (host.answer (.write fd bytes) state).1] := by
  rw [writeRounds, Action.traceRounds, trace_writeSome host limit fd hne,
    Run.bind_of_returned rfl]
  cases writeOutcome bytes (host.answer (.write fd bytes) state).1 <;> rfl

/-- Writing shows the text at once, and when it ends no text goes on. -/
theorem writeRounds_doings (bound : Nat) {bytes : Bytes} {midway : Bool}
    (hm : midway → bytes ≠ []) (state : σ) :
    doingsFrom midway (writeRounds host fd limit bound bytes state).moves <+:
      Doing.text midway fd bytes ∧
    ((writeRounds host fd limit bound bytes state).result.isSome → ∀ more,
      doingsFrom midway ((writeRounds host fd limit bound bytes state).moves ++ more) =
        Doing.text midway fd bytes ++ doings more) := by
  induction bound generalizing bytes midway state with
  | zero => exact ⟨doingsFrom_nil midway ▸ List.nil_prefix, nofun⟩
  | succ bound ih =>
    by_cases hne : bytes = []
    · subst hne
      obtain rfl : midway = false := by simpa using hm
      exact ⟨doingsFrom_nil false ▸ List.nil_prefix, fun _ more => rfl⟩
    rw [writeRounds_succ host fd limit bound hne]
    have htext : Doing.text midway fd bytes = (Move.asked state (.write fd bytes)
        (host.answer (.write fd bytes) state).1).doing midway := by
      cases midway <;> simp [Doing.text, Move.doing, hne]
    rcases ho : writeOutcome bytes (host.answer (.write fd bytes) state).1 with next | result
    · have hgoes := @goesOn_of_inl σ state fd _ _ _ hne ho
      obtain ⟨hsofar, hended⟩ := @ih next (!next.isEmpty) (by simp)
        (host.answer (.write fd bytes) state).2
      have hnone : Doing.text (!next.isEmpty) fd next = [] := by simp [Doing.text]
      rw [hnone] at hsofar hended
      simp only [Run.after_moves, Run.after_result, List.cons_append, List.nil_append,
        doingsFrom_cons, hgoes, htext]
      refine ⟨?_, fun hs more => ?_⟩
      · simp [List.prefix_nil.1 hsofar]
      · rw [hended hs more, List.nil_append]
    · have hgoes := @goesOn_of_inr σ state fd _ _ _ ho
      simp only [Run.pure, Run.after_moves, List.cons_append, List.nil_append, List.append_nil,
        doingsFrom_cons, doingsFrom_nil, hgoes, htext]
      exact ⟨List.prefix_rfl, fun _ _ => trivial⟩

theorem writeRounds_keeps {states : σ → Prop} (hw : ∀ bytes state, states state →
    states (host.answer (.write fd bytes) state).2) (bound : Nat) (bytes : Bytes) {state last : σ}
    {ending : Ending (Except Errno Unit)} (hin : states state)
    (hr : (writeRounds host fd limit bound bytes state).result = some (ending, last)) :
    states last := by
  induction bound generalizing bytes state with
  | zero => cases hr
  | succ bound ih =>
    by_cases hne : bytes = []
    · subst hne
      obtain ⟨-, rfl⟩ : _ ∧ state = last := by
        simpa [writeRounds, Action.traceRounds, writeSome, Run.bind, Run.pure, Run.after] using hr
      exact hin
    rw [writeRounds_succ host fd limit bound hne] at hr
    have hnext := hw bytes state hin
    rcases ho : writeOutcome bytes (host.answer (.write fd bytes) state).1 with next | result <;>
      rw [ho] at hr
    · exact ih next hnext hr
    · obtain ⟨-, rfl⟩ : _ ∧ _ = last := by simpa [Run.pure, Run.after] using hr
      exact hnext

end

/-- A text that is displayed is written, and a failure noted. -/
theorem trace_display (bound : Nat) (label text : String) (state : σ) :
    trace host bound (display label text) state =
      let run := writeRounds host .output bound bound (Text.encode text) state
      ⟨run.moves, run.result.map fun
        | (.returned (.error errno), last) =>
          (.returned (), host.note (label ++ ": " ++ errno.text) last)
        | (_, last) => (.returned (), last)⟩ := by
  have hstays := (writeText_writes host bound .output text state).stays
  rw [trace_writeText] at hstays
  rw [display, Action.trace_bind, trace_writeText]
  generalize hrun : Action.traceRounds _ bound (Text.encode text) state = run at hstays ⊢
  rw [writeRounds, hrun]
  obtain ⟨moves, _ | ⟨(errno | _) | status, last⟩⟩ := run
  · rfl
  · exact congrArg (Run.mk · _) (List.append_nil _)
  · exact congrArg (Run.mk · _) (List.append_nil _)
  · exact absurd rfl (hstays status last)

/-- A text that is displayed is shown at once, and when it is over nothing of it goes on. -/
theorem display_doings (bound : Nat) (label text : String) (state : σ) :
    doings (trace host bound (display label text) state).moves <+:
      Doing.text false .output (Text.encode text) ∧
    ((trace host bound (display label text) state).result.isSome →
      doings (trace host bound (display label text) state).moves =
        Doing.text false .output (Text.encode text) ∧
      Whole (trace host bound (display label text) state).moves) := by
  obtain ⟨hsofar, hended⟩ := @writeRounds_doings σ host .output bound bound (Text.encode text)
    false nofun state
  rw [trace_display]
  refine ⟨hsofar, fun hs => ?_⟩
  have hall := hended (by simpa using hs)
  have hone : doings (writeRounds host .output bound bound (Text.encode text) state).moves =
      Doing.text false .output (Text.encode text) := by
    simpa only [List.append_nil, doings, doingsFrom_nil] using hall []
  exact ⟨hone, fun more => (hall more).trans (congrArg (· ++ _) hone.symm)⟩

theorem display_keeps {states : σ → Prop}
    (hw : ∀ bytes state, states state → states (host.answer (.write .output bytes) state).2)
    (hn : ∀ line state, states state → states (host.note line state)) {bound : Nat}
    {label text : String} {state last : σ} {ending : Ending Unit} (hin : states state)
    (hr : (trace host bound (display label text) state).result = some (ending, last)) :
    ending = .returned () ∧ states last := by
  rw [trace_display] at hr
  rcases hw' : (writeRounds host .output bound bound (Text.encode text) state).result with
    _ | ⟨result, between⟩ <;> simp only [hw', Option.map] at hr
  · cases hr
  · have hbetween := writeRounds_keeps host .output bound hw bound _ hin hw'
    rcases result with (errno | _) | status <;> cases hr
    · exact ⟨rfl, hn _ _ hbetween⟩
    · exact ⟨rfl, hbetween⟩
    · exact ⟨rfl, hbetween⟩

end TinyShell
