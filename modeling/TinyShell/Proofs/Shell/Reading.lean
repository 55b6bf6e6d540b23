import Mathlib.Data.List.Basic
import TinyShell.Proofs.Action.Feed
import TinyShell.Rehearsal.Script
import TinyShell.Shell.Line

/-!
# Reading splits the input

`LineBuffer.readTimes_pieces`: line after line, reading takes the input apart into its lines, and a
line that does not fit into the buffer into full buffers and what is left of it. Nothing is lost,
read twice or read ahead, however often a call is interrupted.

* `Piece`: what one read takes. `pieces` says which pieces an input has, line by line.
* `fill`: the same for one read alone, byte by byte. `pieces_eq` ties the two together.
* `LineBuffer.Holds`: the bytes of a buffer and zeros behind them, which is what each byte that is
  read keeps (`Holds.push`).
-/

namespace TinyShell

open Text (Bytes)

/-! ## The pieces of an input -/

/-- What one read takes: bytes of a line, and the newline behind them if it came that far. -/
structure Piece where
  bytes : Bytes
  newline : Bool
  deriving DecidableEq, Repr

namespace Piece

/-- The input that is gone after the read. -/
def consumed (piece : Piece) : Bytes := piece.bytes ++ if piece.newline then [10] else []

/-- The buffers that a line fills. -/
def full (line : Bytes) : List Piece :=
  (List.range (line.length / maxLineLength)).map fun i =>
    ⟨(line.drop (i * maxLineLength)).take maxLineLength, false⟩

/-- What is left of a line behind them. -/
def remainder (line : Bytes) : Bytes := line.drop (line.length / maxLineLength * maxLineLength)

/-- A line with a newline: its last piece may be empty. -/
def ofLine (line : Bytes) : List Piece := full line ++ [⟨remainder line, true⟩]

/-- What follows the last newline. -/
def ofTail (tail : Bytes) : List Piece :=
  full tail ++ if remainder tail = [] then [] else [⟨remainder tail, false⟩]

/-- The pieces of lines of which all but the last one end with a newline. -/
def ofLines : List Bytes → List Piece
  | [] => []
  | [tail] => ofTail tail
  | line :: rest => ofLine line ++ ofLines rest

end Piece

/-- The pieces of an input. -/
def pieces (input : Bytes) : List Piece := Piece.ofLines (input.splitOn 10)

/-- What one read takes if there is room for so many bytes, and what it leaves. -/
def fill : (room : Nat) → Bytes → Piece × Bytes
  | 0, input => (⟨[], false⟩, input)
  | _ + 1, [] => (⟨[], false⟩, [])
  | room + 1, byte :: rest =>
    if byte = 10 then (⟨[], true⟩, rest)
    else
      let (piece, left) := fill room rest
      ({ piece with bytes := byte :: piece.bytes }, left)

section
variable {line rest : Bytes}

namespace Piece

theorem full_of_lt (h : line.length < maxLineLength) : full line = [] := by
  rw [full, Nat.div_eq_of_lt h]
  rfl

theorem remainder_of_lt (h : line.length < maxLineLength) : remainder line = line := by
  rw [remainder, Nat.div_eq_of_lt h, Nat.zero_mul, List.drop_zero]

theorem div_of_le (h : maxLineLength ≤ line.length) : line.length / maxLineLength =
    (line.drop maxLineLength).length / maxLineLength + 1 := by
  rw [List.length_drop]
  exact Nat.div_eq_sub_div (by decide) h

/-- A line that fills the buffer is one full buffer, and then a shorter line. -/
theorem full_of_le (h : maxLineLength ≤ line.length) :
    full line = ⟨line.take maxLineLength, false⟩ :: full (line.drop maxLineLength) := by
  rw [full, div_of_le h, List.range_succ_eq_map, List.map_cons, List.map_map, Nat.zero_mul,
    List.drop_zero, full]
  refine congrArg (List.cons _) (List.map_congr_left fun i _ => ?_)
  rw [Function.comp_apply, List.drop_drop, Nat.succ_mul, Nat.add_comm]

theorem remainder_of_le (h : maxLineLength ≤ line.length) :
    remainder line = remainder (line.drop maxLineLength) := by
  rw [remainder, div_of_le h, remainder, List.drop_drop, Nat.succ_mul, Nat.add_comm]

end Piece

theorem pieces_line (h : 10 ∉ line) (rest : Bytes) :
    pieces (line ++ 10 :: rest) = Piece.ofLine line ++ pieces rest := by
  rw [pieces, List.splitOn_append_cons_self_of_not_mem h, pieces]
  obtain ⟨first, others, hs⟩ := List.exists_cons_of_ne_nil (List.splitOn_ne_nil 10 rest)
  rw [hs]
  rfl

theorem pieces_tail (h : 10 ∉ line) : pieces line = Piece.ofTail line := by
  rw [pieces, List.splitOn_eq_singleton h]
  rfl

theorem fill_full (h : 10 ∉ line) (rest : Bytes) :
    fill line.length (line ++ rest) = (⟨line, false⟩, rest) := by
  induction line with
  | nil => cases rest <;> rfl
  | cons byte line ih =>
    obtain ⟨hb, hl⟩ := not_or.1 (mt List.mem_cons.2 h)
    rw [List.length_cons, List.cons_append, fill, if_neg (Ne.symm hb), ih hl]

theorem fill_newline (h : 10 ∉ line) {room : Nat} (hroom : line.length < room) (rest : Bytes) :
    fill room (line ++ 10 :: rest) = (⟨line, true⟩, rest) := by
  induction line generalizing room with
  | nil =>
    obtain ⟨more, rfl⟩ : ∃ more, room = more + 1 := ⟨room - 1, by simp at hroom; omega⟩
    rfl
  | cons byte line ih =>
    obtain ⟨hb, hl⟩ := not_or.1 (mt List.mem_cons.2 h)
    rw [List.length_cons] at hroom
    obtain ⟨more, rfl⟩ : ∃ more, room = more + 1 := ⟨room - 1, by omega⟩
    rw [List.cons_append, fill, if_neg (Ne.symm hb), ih hl (by omega)]

theorem fill_tail (h : 10 ∉ line) {room : Nat} (hroom : line.length < room) :
    fill room line = (⟨line, false⟩, []) := by
  induction line generalizing room with
  | nil => cases room <;> rfl
  | cons byte line ih =>
    obtain ⟨hb, hl⟩ := not_or.1 (mt List.mem_cons.2 h)
    rw [List.length_cons] at hroom
    obtain ⟨more, rfl⟩ : ∃ more, room = more + 1 := ⟨room - 1, by omega⟩
    rw [fill, if_neg (Ne.symm hb), ih hl (by omega)]

/-- So many bytes of a line fill a buffer for them. -/
theorem fill_take (h : 10 ∉ line) {room : Nat} (hroom : room ≤ line.length) (rest : Bytes) :
    fill room (line ++ rest) = (⟨line.take room, false⟩, line.drop room ++ rest) := by
  have hlen : (line.take room).length = room := by
    rw [List.length_take, Nat.min_eq_left hroom]
  have hfull := @fill_full (line.take room) (mt List.mem_of_mem_take h) (line.drop room ++ rest)
  rwa [hlen, ← List.append_assoc, List.take_append_drop] at hfull

theorem pieces_nil : pieces [] = [] := rfl

/-- A buffer that is filled from the input takes its first piece and leaves the others. -/
theorem pieces_eq {input : Bytes} (hne : input ≠ []) : pieces input =
    (fill maxLineLength input).1 :: pieces (fill maxLineLength input).2 := by
  by_cases hnew : 10 ∈ input
  · obtain ⟨line, rest, rfl, hline⟩ := List.eq_append_cons_of_mem hnew
    rcases Nat.lt_or_ge line.length maxLineLength with hlt | hge
    · rw [fill_newline hline hlt, pieces_line hline, Piece.ofLine, Piece.full_of_lt hlt,
        Piece.remainder_of_lt hlt, List.nil_append, List.singleton_append]
    · rw [fill_take hline hge, pieces_line hline, pieces_line (mt List.mem_of_mem_drop hline),
        Piece.ofLine, Piece.full_of_le hge, Piece.remainder_of_le hge, Piece.ofLine,
        List.cons_append, List.cons_append]
  · rw [pieces_tail hnew, Piece.ofTail]
    rcases Nat.lt_or_ge input.length maxLineLength with hlt | hge
    · rw [fill_tail hnew hlt, Piece.full_of_lt hlt, Piece.remainder_of_lt hlt, if_neg hne,
        pieces_nil, List.nil_append]
    · have hfill := fill_take hnew hge []
      rw [List.append_nil, List.append_nil] at hfill
      rw [hfill, pieces_tail (mt List.mem_of_mem_drop hnew), Piece.ofTail, Piece.full_of_le hge,
        Piece.remainder_of_le hge, List.cons_append]

example : pieces [97, 10, 10, 98] = [⟨[97], true⟩, ⟨[], true⟩, ⟨[98], false⟩] := by decide

/-- What a read takes and what it leaves are all there was. -/
theorem consumed_fill (room : Nat) (input : Bytes) :
    (fill room input).1.consumed ++ (fill room input).2 = input := by
  induction room generalizing input with
  | zero => rfl
  | succ room ih =>
    rcases input with _ | ⟨byte, rest⟩
    · rfl
    · rw [fill]
      split
      · rename_i h
        rw [h]
        rfl
      · exact congrArg (byte :: ·) (ih rest)

end

/-! ## Buffers -/

namespace LineBuffer

/-- The buffer holds these bytes, and zeros behind them. -/
structure Holds (buffer : LineBuffer) (bytes : Bytes) : Prop where
  room : buffer.bytes.toList = bytes ++ List.replicate (maxLineLength + 1 - bytes.length) 0
  length : buffer.length = bytes.length

theorem holds_empty : empty.Holds [] := ⟨Vector.toList_replicate, rfl⟩

namespace Holds

variable {buffer : LineBuffer} {bytes : Bytes}

theorem length_le (h : buffer.Holds bytes) : bytes.length ≤ maxLineLength :=
  h.length ▸ buffer.length_le

theorem stored (h : buffer.Holds bytes) : buffer.stored = bytes := by
  rw [LineBuffer.stored, h.room, h.length, List.take_left]

/-- A byte takes the place of the first zero. -/
theorem push (h : buffer.Holds bytes) (hroom : bytes.length < maxLineLength) (byte : UInt8) :
    (buffer.push byte).Holds (bytes ++ [byte]) := by
  have hlen := h.length
  rw [LineBuffer.push, dif_pos (by omega)]
  refine ⟨?_, by simp [hlen]⟩
  have hzeros : maxLineLength + 1 - bytes.length =
      (maxLineLength + 1 - (bytes ++ [byte]).length) + 1 := by
    rw [List.length_append, List.length_singleton]
    omega
  rw [Vector.toList_set, h.room, hlen, hzeros, List.replicate_succ,
    List.set_append_right _ _ (Nat.le_refl _), Nat.sub_self, List.set_cons_zero,
    List.append_assoc, List.singleton_append]

theorem zero (h : buffer.Holds bytes) {i : Nat} (hi : i < maxLineLength + 1)
    (hl : buffer.length ≤ i) : buffer.bytes[i] = 0 := by
  have hlen := h.length
  have hget : buffer.bytes.toList[i]? = some 0 := by
    rw [h.room, List.getElem?_append_right (by omega), List.getElem?_replicate, if_pos (by omega)]
  simpa [hi] using hget

end Holds

end LineBuffer

/-! ## Inputs -/

/-- What comes in before the input ends. -/
inductive Arrival where
  | byte (byte : UInt8)
  /-- A read is interrupted. -/
  | interruption
  deriving DecidableEq, Repr

namespace Arrival

def reading : Arrival → Reading
  | byte b => .ok [b]
  | interruption => .error .eintr

def byte? : Arrival → Option UInt8
  | byte b => some b
  | interruption => none

end Arrival

/-- An input without its interruptions. -/
def bytesOf (arrivals : List Arrival) : Bytes := arrivals.filterMap Arrival.byte?

/-- What reads are answered: what comes in, and then the end of input for ever. -/
def supply (arrivals : List Arrival) (i : Nat) : Reading :=
  (arrivals[i]?.map Arrival.reading).getD (.ok [])

section
variable {σ : Type} {host : Host σ} {fd : Descriptor} {state : σ}

theorem answer_of_feed_cons {arrival : Arrival} {rest : List Arrival}
    (h : host.feed fd state = supply (arrival :: rest)) :
    (host.answer (.read fd 1) state).1 = arrival.reading ∧
      host.feed fd (host.answer (.read fd 1) state).2 = supply rest := by
  refine ⟨congrFun h 0, funext fun i => ?_⟩
  rw [Host.feed_next, h]
  rfl

theorem answer_of_feed_nil (h : host.feed fd state = supply []) :
    (host.answer (.read fd 1) state).1 = .ok [] ∧
      host.feed fd (host.answer (.read fd 1) state).2 = supply [] := by
  refine ⟨congrFun h 0, funext fun i => ?_⟩
  rw [Host.feed_next, h]
  rfl

end

/-- What comes in as an item of a script. -/
def Arrival.item : Arrival → InputItem
  | .byte b => .byte b
  | .interruption => .failure .eintr

/-- A script supplies the input that it was given. -/
theorem feed_script (fd : Descriptor) (script : Script) (arrivals : List Arrival) :
    Script.host.feed fd { script with input := arrivals.map Arrival.item } = supply arrivals := by
  funext i
  induction arrivals generalizing i with
  | nil =>
    induction i with
    | zero => rfl
    | succ i ih => exact ih
  | cons arrival rest ih =>
    rcases i with _ | i
    · cases arrival <;> rfl
    · rw [← Host.feed_next]
      cases arrival <;> exact ih i

/-! ## One read -/

namespace LineBuffer

open TinyShell.Action (ComesTo trace)

section
variable {σ : Type} (host : Host σ) (bound : Nat) (fd : Descriptor) {buffer : LineBuffer}

/-- What a reply makes of a buffer with room: there is more to read, or the line is over. -/
def afterReply (buffer : LineBuffer) : Reading → LineBuffer ⊕ (LineStatus × LineBuffer)
  | .ok [] => .inr (buffer.ended, buffer)
  | .ok (byte :: _) =>
    if byte = 10 then .inr (.line buffer.length, buffer) else .inl (buffer.push byte)
  | .error .eintr => .inl buffer
  | .error errno =>
    .inr (if buffer.isEmpty then .failed errno else .line buffer.length, buffer)

theorem readByte_of_full (h : maxLineLength ≤ buffer.length) :
    readByte fd buffer = pure (.inr (buffer.ended, buffer)) := if_pos h

theorem readByte_of_room (h : buffer.length < maxLineLength) :
    readByte fd buffer =
      Action.call (.read fd 1) >>= fun reply => pure (buffer.afterReply reply) := by
  rw [readByte, if_neg (Nat.not_le.2 h)]
  refine congrArg (Action.call (.read fd 1) >>= ·) (funext fun reply => ?_)
  rcases reply with errno | (_ | ⟨byte, rest⟩)
  · cases errno <;> rfl
  · rfl
  · by_cases hb : byte = 10 <;> simp [afterReply, hb]

theorem trace_readByte_full (h : maxLineLength ≤ buffer.length) (state : σ) :
    trace host bound (readByte fd buffer) state = .pure (.inr (buffer.ended, buffer)) state := by
  rw [readByte_of_full fd h]
  rfl

theorem trace_readByte (h : buffer.length < maxLineLength) (state : σ) :
    trace host bound (readByte fd buffer) state =
      ⟨[.asked state (.read fd 1) (host.answer (.read fd 1) state).1],
        some (.returned (buffer.afterReply (host.answer (.read fd 1) state).1),
          (host.answer (.read fd 1) state).2)⟩ := by
  rw [readByte_of_room fd h, Action.trace_call_bind]
  rfl

theorem trace_read (buffer : LineBuffer) (state : σ) :
    trace host bound (buffer.read fd) state =
      Action.traceRounds (fun buffer state => trace host bound (readByte fd buffer) state) bound
        empty state :=
  Action.trace_iterate ..

variable {host fd} in
/-- A read of one byte, by the reply that it gets. -/
theorem readByte_comesTo (h : buffer.length < maxLineLength) {state : σ} {reading : Reading}
    (hr : (host.answer (.read fd 1) state).1 = reading) :
    ComesTo host (readByte fd buffer) state (.returned (buffer.afterReply reading))
      (host.answer (.read fd 1) state).2 := by
  subst hr
  exact .of_run 0 (by rw [← Action.trace_result, trace_readByte host 0 fd h])

end

/-- The status of a line that is over, with or without a newline. -/
def statusOf (newline : Bool) (bytes : Bytes) : LineStatus :=
  if newline = false ∧ bytes = [] then .endOfInput else .line bytes.length

/-- A read that took something is not at the end of the input. -/
theorem statusOf_fill {room : Nat} (hroom : 0 < room) {input : Bytes} (hne : input ≠ []) :
    statusOf (fill room input).1.newline (fill room input).1.bytes =
      .line (fill room input).1.bytes.length := by
  obtain ⟨byte, rest, rfl⟩ := List.exists_cons_of_ne_nil hne
  obtain ⟨less, rfl⟩ : ∃ less, room = less + 1 := ⟨room - 1, by omega⟩
  rw [fill]
  by_cases hb : byte = 10 <;> simp [hb, statusOf]

theorem Holds.ended {buffer : LineBuffer} {bytes : Bytes} (h : buffer.Holds bytes) :
    buffer.ended = statusOf false bytes := by
  have hlen := h.length
  unfold LineBuffer.ended statusOf isEmpty
  rcases bytes with _ | ⟨byte, rest⟩ <;> simp [hlen]

section
variable {σ : Type} {host : Host σ} {fd : Descriptor} {arrivals : List Arrival}

/-- Reading goes on from what the buffer holds: it takes one piece of the input, as far as there is
room for it. -/
theorem readBytes_fill {buffer : LineBuffer} {held : Bytes} (h : buffer.Holds held) {state : σ}
    (hfeed : host.feed fd state = supply arrivals) :
    let taken := fill (maxLineLength - held.length) (bytesOf arrivals)
    ∃ filled after rest, ComesTo host (Action.iterate (readByte fd) buffer) state
        (.returned (statusOf taken.1.newline (held ++ taken.1.bytes), filled)) after ∧
      filled.Holds (held ++ taken.1.bytes) ∧ host.feed fd after = supply rest ∧
      rest <:+ arrivals ∧ bytesOf rest = taken.2 := by
  have hle := h.length_le
  have hlen := h.length
  induction arrivals generalizing buffer held state with
  | nil =>
    have hnone : ∀ room, fill room (bytesOf []) = (⟨[], false⟩, []) := fun room => by
      cases room <;> rfl
    simp only [hnone, List.append_nil]
    rcases Nat.lt_or_ge held.length maxLineLength with hlt | hge
    · obtain ⟨hr, hnext⟩ := answer_of_feed_nil hfeed
      have hroom : buffer.length < maxLineLength := by omega
      have hstep := readByte_comesTo hroom hr
      rw [afterReply, h.ended] at hstep
      exact ⟨buffer, _, [], .iterate_last hstep, h, hnext, List.suffix_rfl, rfl⟩
    · have hstep : ComesTo host (readByte fd buffer) state _ state :=
        .of_run 0 (by rw [← Action.trace_result, trace_readByte_full host 0 fd (by omega)]; rfl)
      rw [h.ended] at hstep
      exact ⟨buffer, _, [], .iterate_last hstep, h, hfeed, List.suffix_rfl, rfl⟩
  | cons arrival rest ih =>
    rcases Nat.lt_or_ge held.length maxLineLength with hlt | hge
    · obtain ⟨hr, hnext⟩ := answer_of_feed_cons hfeed
      have hroom : buffer.length < maxLineLength := by omega
      have hstep := readByte_comesTo hroom hr
      obtain ⟨room, hroom⟩ : ∃ room, maxLineLength - held.length = room + 1 :=
        ⟨maxLineLength - held.length - 1, by omega⟩
      cases arrival with
      | interruption =>
        -- nothing came in, and the call is made again
        obtain ⟨filled, after, left, hrun, hheld, hafter, hsuffix, hleft⟩ := ih h hnext hle hlen
        exact ⟨filled, after, left, .iterate_next hstep hrun, hheld, hafter,
          hsuffix.trans (List.suffix_cons ..), hleft⟩
      | byte b =>
        simp only [bytesOf, List.filterMap_cons, Arrival.byte?, hroom, fill]
        by_cases hb : b = 10
        · simp only [Arrival.reading, afterReply, hb, if_true] at hstep
          have hstatus : LineStatus.line buffer.length = statusOf true held := by
            simp [statusOf, hlen]
          rw [hstatus] at hstep
          simp only [hb, if_true, List.append_nil]
          exact ⟨buffer, _, rest, .iterate_last hstep, h, hnext, List.suffix_cons .., rfl⟩
        · simp only [Arrival.reading, afterReply, hb, if_false] at hstep
          have hpush := h.push hlt b
          have hmore : maxLineLength - (held ++ [b]).length = room := by
            rw [List.length_append, List.length_singleton]
            omega
          obtain ⟨filled, after, left, hrun, hheld, hafter, hsuffix, hleft⟩ :=
            ih hpush hnext hpush.length_le hpush.length
          rw [hmore, List.append_assoc, List.singleton_append] at hrun hheld
          rw [hmore] at hleft
          simp only [hb, if_false]
          exact ⟨filled, after, left, .iterate_next hstep hrun, hheld, hafter,
            hsuffix.trans (List.suffix_cons ..), hleft⟩
    · have hstep : ComesTo host (readByte fd buffer) state _ state :=
        .of_run 0 (by rw [← Action.trace_result, trace_readByte_full host 0 fd (by omega)]; rfl)
      rw [h.ended] at hstep
      have hfull : maxLineLength - held.length = 0 := by omega
      simp only [hfull, fill, List.append_nil]
      exact ⟨buffer, state, _, .iterate_last hstep, h, hfeed, List.suffix_rfl, rfl⟩

/-- The line that a read comes back with, or the end of the input if no piece was left. -/
structure ReadAs (result : LineStatus × LineBuffer) (piece : Option Piece) : Prop where
  status : result.1 = (piece.map fun piece => .line piece.bytes.length).getD .endOfInput
  stored : result.2.stored = (piece.map Piece.bytes).getD []
  length : result.2.length = result.2.stored.length
  length_le : result.2.length ≤ maxLineLength
  zeros : ∀ i (h : i < maxLineLength + 1), result.2.length ≤ i → result.2.bytes[i] = 0

theorem Holds.readAs {buffer : LineBuffer} {bytes : Bytes} (h : buffer.Holds bytes)
    {status : LineStatus} {piece : Option Piece} (hb : (piece.map Piece.bytes).getD [] = bytes)
    (hs : status = (piece.map fun piece => .line piece.bytes.length).getD .endOfInput) :
    ReadAs (status, buffer) piece where
  status := hs
  stored := h.stored.trans hb.symm
  length := h.length.trans (congrArg List.length h.stored.symm)
  length_le := buffer.length_le
  zeros _ hi hl := h.zero hi hl

/-- One read, whatever was in the buffer before: it comes back with the first piece of the input,
and leaves the others. -/
theorem read_piece (buffer : LineBuffer) {state : σ}
    (hfeed : host.feed fd state = supply arrivals) :
    ∃ result after rest, ComesTo host (buffer.read fd) state (.returned result) after ∧
      ReadAs result (pieces (bytesOf arrivals)).head? ∧ host.feed fd after = supply rest ∧
      rest <:+ arrivals ∧ pieces (bytesOf rest) = (pieces (bytesOf arrivals)).tail ∧
      bytesOf arrivals =
        ((pieces (bytesOf arrivals)).take 1).flatMap Piece.consumed ++ bytesOf rest := by
  obtain ⟨filled, after, rest, hrun, hholds, hafter, hsuffix, hleft⟩ :=
    readBytes_fill holds_empty hfeed
  simp only [List.length_nil, Nat.sub_zero, List.nil_append] at hrun hholds hleft
  refine ⟨_, after, rest, hrun, ?_⟩
  by_cases hne : bytesOf arrivals = []
  · have hnothing : fill maxLineLength [] = (⟨[], false⟩, []) := rfl
    rw [hne, hnothing] at hholds hleft ⊢
    exact ⟨hholds.readAs rfl rfl, hafter, hsuffix, by rw [hleft]; rfl, hleft.symm⟩
  · have hall := consumed_fill maxLineLength (bytesOf arrivals)
    rw [pieces_eq hne, hleft]
    refine ⟨hholds.readAs rfl (statusOf_fill (by decide) hne), hafter, hsuffix, rfl, ?_⟩
    simpa using hall.symm

/-! ## Reads in a row -/

/-- So many lines, each read into the buffer that the last one left. -/
def readTimes (fd : Descriptor) : Nat → LineBuffer → Action (List (LineStatus × LineBuffer))
  | 0, _ => return []
  | count + 1, buffer => do
    let result ← buffer.read fd
    let results ← readTimes fd count result.2
    return result :: results

end

/-- Reads in a row come back with the pieces of the input, one after the other, and then with its
end. Each takes away the piece that it returns, with its newline, and nothing else. -/
theorem readTimes_pieces {σ : Type} (host : Host σ) {state : σ} {arrivals : List Arrival}
    (hfeed : host.feed .input state = supply arrivals) (buffer : LineBuffer) (count : Nat) :
    ∃ results after rest,
      ComesTo host (readTimes .input count buffer) state (.returned results) after ∧
      results.length = count ∧
      (∀ (i : Nat) result, results[i]? = some result →
        ReadAs result (pieces (bytesOf arrivals))[i]?) ∧
      host.feed .input after = supply rest ∧ rest <:+ arrivals ∧
      bytesOf arrivals =
        ((pieces (bytesOf arrivals)).take count).flatMap Piece.consumed ++ bytesOf rest := by
  induction count generalizing buffer state arrivals with
  | zero =>
    exact ⟨[], state, arrivals, .pure [] state, rfl, by simp, hfeed, List.suffix_rfl, rfl⟩
  | succ count ih =>
    obtain ⟨result, between, left, hread, has, hbetween, hsuffix, hpieces, hbytes⟩ :=
      read_piece buffer hfeed
    obtain ⟨results, after, rest, hrun, hlen, hall, hafter, hrest, hmore⟩ := ih hbetween result.2
    refine ⟨result :: results, after, rest, hread.bind (hrun.bind (.pure _ _)), by simp [hlen],
      fun i other hi => ?_, hafter, hrest.trans hsuffix, ?_⟩
    · rcases i with _ | i
      · obtain rfl : result = other := by simpa using hi
        rwa [← List.head?_eq_getElem?]
      · have hother := hall i other (by simpa using hi)
        rwa [hpieces, List.getElem?_tail] at hother
    · calc bytesOf arrivals
          = ((pieces (bytesOf arrivals)).take 1).flatMap Piece.consumed ++ bytesOf left := hbytes
        _ = ((pieces (bytesOf arrivals)).take 1).flatMap Piece.consumed ++
              (((pieces (bytesOf arrivals)).tail.take count).flatMap Piece.consumed ++
                bytesOf rest) := by rw [← hpieces, ← hmore]
        _ = ((pieces (bytesOf arrivals)).take (count + 1)).flatMap Piece.consumed ++
              bytesOf rest := by
          rw [← List.append_assoc, ← List.flatMap_append]
          cases pieces (bytesOf arrivals) <;> simp

/-- A line as long as the buffer, whose newline comes after an interruption, and an input that ends
without one. -/
theorem readTimes_pieces_script :
    let arrivals := List.replicate maxLineLength (.byte 120) ++
      [.interruption, .byte 10, .byte 97, .interruption]
    let script : Script := { input := arrivals.map Arrival.item }
    Script.host.feed .input script = supply arrivals ∧ ∃ results after rest,
      ComesTo Script.host (readTimes .input 4 .empty) script (.returned results) after ∧
      results.length = 4 ∧
      (∀ (i : Nat) result, results[i]? = some result →
        ReadAs result (pieces (bytesOf arrivals))[i]?) ∧
      Script.host.feed .input after = supply rest ∧ rest <:+ arrivals ∧
      bytesOf arrivals =
        ((pieces (bytesOf arrivals)).take 4).flatMap Piece.consumed ++ bytesOf rest := by
  intro arrivals script
  have hfeed := feed_script .input {} arrivals
  exact ⟨hfeed, readTimes_pieces Script.host hfeed .empty 4⟩

end LineBuffer

end TinyShell
