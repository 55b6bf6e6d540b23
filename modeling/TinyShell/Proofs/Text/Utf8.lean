import TinyShell.Text.Utf8

/-!
# Decoding what was encoded

`Text.decode_encode`: a text comes back from its bytes. `Text.newline_mem_encode`: the byte of a
newline is among them only for a newline.

The lead byte of a character gives its first bits, how many bytes follow and the range of the next
one (`Lead.ofByte_two`, `Lead.ofByte_three`, `Lead.ofByte_four`); each byte that follows gives six
more bits (`decodeRest_cons`).
-/

namespace TinyShell.Text

theorem toNat_ofNat {n : Nat} (h : n < 256) : (UInt8.ofNat n).toNat = n := by
  rw [UInt8.toNat_ofNat']
  exact Nat.mod_eq_of_lt h

/-! ## Bytes that follow -/

/-- Six bits that the range of the next byte allows. -/
structure Follows (low high : UInt8) (bits : Nat) : Prop where
  lt : bits < 64
  low_le : low.toNat ≤ bits + 128
  le_high : bits + 128 ≤ high.toNat

theorem follows_of_lt {bits : Nat} (h : bits < 64) : Follows 0x80 0xbf bits :=
  ⟨h, Nat.le_add_left 128 bits, Nat.add_le_add_right (Nat.le_of_lt_succ h) 128⟩

theorem decodeRest_cons {low high : UInt8} {bits : Nat} (h : Follows low high bits)
    (value count : Nat) (rest : Bytes) :
    decodeRest value (count + 1) low high (UInt8.ofNat (bits + 128) :: rest) =
      decodeRest (value * 64 + bits) count 0x80 0xbf rest := by
  have hbyte : (UInt8.ofNat (bits + 128)).toNat = bits + 128 :=
    toNat_ofNat (Nat.lt_trans (Nat.add_lt_add_right h.lt 128) (by decide))
  have hrange : low ≤ UInt8.ofNat (bits + 128) ∧ UInt8.ofNat (bits + 128) ≤ high := by
    rw [UInt8.le_iff_toNat_le, UInt8.le_iff_toNat_le, hbyte]
    exact ⟨h.low_le, h.le_high⟩
  rw [decodeRest, if_pos hrange, hbyte, Nat.add_sub_cancel]

/-! ## Lead bytes -/

theorem Lead.ofByte_one {n : Nat} (h : n < 128) :
    Lead.ofByte (UInt8.ofNat n) = some ⟨n, 0, 0x80, 0xbf⟩ := by
  simp only [Lead.ofByte, toNat_ofNat (Nat.lt_trans h (by decide))]
  rw [if_pos h]

theorem Lead.ofByte_two {bits : Nat} (hl : 2 ≤ bits) (hb : bits < 32) :
    Lead.ofByte (UInt8.ofNat (bits + 192)) = some ⟨bits, 1, 0x80, 0xbf⟩ := by
  simp only [Lead.ofByte, toNat_ofNat (show bits + 192 < 256 by omega)]
  rw [if_neg (by omega), if_neg (by omega), if_pos (by omega), Nat.add_sub_cancel]

/-- The byte after a lead of three leaves out what two bytes can say, and surrogates. -/
theorem Lead.ofByte_three {bits next : Nat} (hb : bits < 16) (hn : next < 64)
    (hlong : bits = 0 → 32 ≤ next) (hsurrogate : bits = 13 → next < 32) : ∃ low high,
      Lead.ofByte (UInt8.ofNat (bits + 224)) = some ⟨bits, 2, low, high⟩ ∧
        Follows low high next := by
  by_cases h0 : bits = 0
  · subst h0
    exact ⟨0xa0, 0xbf, rfl, hn, Nat.add_le_add_right (hlong rfl) 128,
      Nat.add_le_add_right (Nat.le_of_lt_succ hn) 128⟩
  by_cases h13 : bits = 13
  · subst h13
    exact ⟨0x80, 0x9f, rfl, hn, Nat.le_add_left 128 next,
      Nat.add_le_add_right (Nat.le_of_lt_succ (hsurrogate rfl)) 128⟩
  refine ⟨0x80, 0xbf, ?_, follows_of_lt hn⟩
  simp only [Lead.ofByte, toNat_ofNat (show bits + 224 < 256 by omega)]
  rw [if_neg (by omega), if_neg (by omega), if_neg (by omega), if_neg (by omega),
    if_neg (by omega), if_pos (by omega), Nat.add_sub_cancel]

/-- The byte after a lead of four leaves out what three bytes can say, and what lies beyond the last
code point. -/
theorem Lead.ofByte_four {bits next : Nat} (hb : bits < 5) (hn : next < 64)
    (hlong : bits = 0 → 16 ≤ next) (hlast : bits = 4 → next < 16) : ∃ low high,
      Lead.ofByte (UInt8.ofNat (bits + 240)) = some ⟨bits, 3, low, high⟩ ∧
        Follows low high next := by
  by_cases h0 : bits = 0
  · subst h0
    exact ⟨0x90, 0xbf, rfl, hn, Nat.add_le_add_right (hlong rfl) 128,
      Nat.add_le_add_right (Nat.le_of_lt_succ hn) 128⟩
  by_cases h4 : bits = 4
  · subst h4
    exact ⟨0x80, 0x8f, rfl, hn, Nat.le_add_left 128 next,
      Nat.add_le_add_right (Nat.le_of_lt_succ (hlast rfl)) 128⟩
  refine ⟨0x80, 0xbf, ?_, follows_of_lt hn⟩
  simp only [Lead.ofByte, toNat_ofNat (show bits + 240 < 256 by omega)]
  rw [if_neg (by omega), if_neg (by omega), if_neg (by omega), if_neg (by omega),
    if_neg (by omega), if_neg (by omega), if_neg (by omega), if_pos (by omega),
    Nat.add_sub_cancel]

/-! ## Characters and texts -/

/-- A character comes back from its bytes, whatever is behind them. -/
theorem decodeChar_encodeChar (c : Char) (rest : Bytes) : ∃ byte others,
    String.utf8EncodeChar c = byte :: others ∧ decodeChar byte (others ++ rest) = (c, rest) := by
  -- a code point is no surrogate and not beyond the last one
  have hrange : c.val.toNat < 0xd800 ∨ 0xdfff < c.val.toNat ∧ c.val.toNat < 0x110000 := c.valid
  have hchar : Char.ofNat c.val.toNat = c := Char.ofNat_toNat c
  rw [String.utf8EncodeChar]
  generalize c.val.toNat = n at hrange hchar ⊢
  split
  · refine ⟨_, _, rfl, ?_⟩
    rw [decodeChar, Lead.ofByte_one (by omega)]
    simp only [decodeRest, hchar, List.nil_append]
  split
  · have hbits : n / 64 % 32 * 64 + n % 64 = n := by omega
    refine ⟨_, _, rfl, ?_⟩
    rw [decodeChar, Lead.ofByte_two (by omega) (by omega)]
    simp only [List.cons_append, List.nil_append]
    rw [decodeRest_cons (follows_of_lt (by omega)), decodeRest, hbits, hchar]
  split
  · have hbits : (n / 4096 % 16 * 64 + n / 64 % 64) * 64 + n % 64 = n := by omega
    obtain ⟨low, high, hlead, hnext⟩ := Lead.ofByte_three
      (show n / 4096 % 16 < 16 by omega) (show n / 64 % 64 < 64 by omega) (by omega) (by omega)
    refine ⟨_, _, rfl, ?_⟩
    rw [decodeChar, hlead]
    simp only [List.cons_append, List.nil_append]
    rw [decodeRest_cons hnext, decodeRest_cons (follows_of_lt (by omega)), decodeRest, hbits, hchar]
  · have hbits : ((n / 262144 % 8 * 64 + n / 4096 % 64) * 64 + n / 64 % 64) * 64 + n % 64 = n := by
      omega
    obtain ⟨low, high, hlead, hnext⟩ := Lead.ofByte_four
      (show n / 262144 % 8 < 5 by omega) (show n / 4096 % 64 < 64 by omega) (by omega) (by omega)
    refine ⟨_, _, rfl, ?_⟩
    rw [decodeChar, hlead]
    simp only [List.cons_append, List.nil_append]
    rw [decodeRest_cons hnext, decodeRest_cons (follows_of_lt (by omega)),
      decodeRest_cons (follows_of_lt (by omega)), decodeRest, hbits, hchar]

theorem decodeChars_encodeChars (cs : List Char) :
    decodeChars (cs.flatMap String.utf8EncodeChar) = cs := by
  induction cs with
  | nil => rw [List.flatMap_nil, decodeChars]
  | cons c cs ih =>
    obtain ⟨byte, others, hbytes, hdecode⟩ :=
      decodeChar_encodeChar c (cs.flatMap String.utf8EncodeChar)
    rw [List.flatMap_cons, hbytes, List.cons_append, decodeChars, hdecode, ih]

theorem encode_append (first second : String) :
    encode (first ++ second) = encode first ++ encode second := by
  rw [encode, String.toList_append, List.flatMap_append, ← encode, ← encode]

/-- A text comes back from its bytes. -/
theorem decode_encode (text : String) : decode (encode text) = text := by
  rw [decode, encode, decodeChars_encodeChars, String.ofList_toList]

theorem newline_ne_ofNat {n : Nat} (hl : 128 ≤ n) (hn : n < 256) : 10 ≠ UInt8.ofNat n := by
  intro h
  have hbyte := congrArg UInt8.toNat h
  rw [toNat_ofNat hn] at hbyte
  change 10 = n at hbyte
  omega

/-- The byte of a newline is part of no other character. -/
theorem newline_mem_encodeChar {c : Char} (h : 10 ∈ String.utf8EncodeChar c) : c = '\n' := by
  have hchar : Char.ofNat c.val.toNat = c := Char.ofNat_toNat c
  rw [String.utf8EncodeChar] at h
  generalize c.val.toNat = n at h hchar
  split at h
  · have hbyte := congrArg UInt8.toNat (List.mem_singleton.1 h)
    rw [toNat_ofNat (by omega)] at hbyte
    obtain rfl : 10 = n := hbyte
    exact hchar.symm
  -- all bytes of a longer character are beyond those of the short ones
  split at h
  · simp only [List.mem_cons, List.not_mem_nil, or_false] at h
    rcases h with h | h <;> exact absurd h (newline_ne_ofNat (by omega) (by omega))
  split at h
  · simp only [List.mem_cons, List.not_mem_nil, or_false] at h
    rcases h with h | h | h <;> exact absurd h (newline_ne_ofNat (by omega) (by omega))
  · simp only [List.mem_cons, List.not_mem_nil, or_false] at h
    rcases h with h | h | h | h <;> exact absurd h (newline_ne_ofNat (by omega) (by omega))

theorem newline_mem_encode {text : String} (h : 10 ∈ encode text) : '\n' ∈ text.toList := by
  obtain ⟨c, hc, hb⟩ := List.mem_flatMap.1 h
  exact newline_mem_encodeChar hb ▸ hc

end TinyShell.Text
