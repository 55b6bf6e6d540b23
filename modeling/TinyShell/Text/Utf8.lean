/-!
# UTF-8

Bytes as text. Decoding never fails: each longest piece that starts no character, or breaks one
off, becomes a single replacement character.
-/

namespace TinyShell.Text

abbrev Bytes := List UInt8

/-- The bytes of a text. -/
def encode (text : String) : Bytes := text.toList.flatMap String.utf8EncodeChar

/-- The character that stands for bytes that are no text. -/
def replacement : Char := '\ufffd'

/-- What the first byte of a character announces: its bits, how many bytes follow, and the range of
the next one. -/
structure Lead where
  value : Nat
  count : Nat
  low : UInt8
  high : UInt8

/-- The lead bytes. The narrowed ranges leave out long forms, surrogates and what lies beyond the
last code point. -/
def Lead.ofByte (byte : UInt8) : Option Lead :=
  let n := byte.toNat
  if n < 0x80 then some ⟨n, 0, 0x80, 0xbf⟩
  else if n < 0xc2 then none
  else if n < 0xe0 then some ⟨n - 0xc0, 1, 0x80, 0xbf⟩
  else if n = 0xe0 then some ⟨n - 0xe0, 2, 0xa0, 0xbf⟩
  else if n = 0xed then some ⟨n - 0xe0, 2, 0x80, 0x9f⟩
  else if n < 0xf0 then some ⟨n - 0xe0, 2, 0x80, 0xbf⟩
  else if n = 0xf0 then some ⟨n - 0xf0, 3, 0x90, 0xbf⟩
  else if n < 0xf4 then some ⟨n - 0xf0, 3, 0x80, 0xbf⟩
  else if n = 0xf4 then some ⟨n - 0xf0, 3, 0x80, 0x8f⟩
  else none

/-- The character of a lead and the bytes after it, with what is left; a byte out of range ends it
as the replacement and is left itself. -/
def decodeRest (value : Nat) : (count : Nat) → (low high : UInt8) → Bytes → Char × Bytes
  | 0, _, _, rest => (Char.ofNat value, rest)
  | _ + 1, _, _, [] => (replacement, [])
  | count + 1, low, high, byte :: rest =>
    if low ≤ byte ∧ byte ≤ high then
      decodeRest (value * 64 + (byte.toNat - 0x80)) count 0x80 0xbf rest
    else
      (replacement, byte :: rest)

theorem length_decodeRest_le (value count : Nat) (low high : UInt8) (bytes : Bytes) :
    (decodeRest value count low high bytes).2.length ≤ bytes.length := by
  induction count generalizing value low high bytes with
  | zero => simp [decodeRest]
  | succ count ih =>
    cases bytes with
    | nil => simp [decodeRest]
    | cons byte rest =>
      rw [decodeRest]
      split
      · exact Nat.le_succ_of_le (ih ..)
      · exact Nat.le_refl _

/-- The character that the bytes start with, and what is left. -/
def decodeChar (byte : UInt8) (rest : Bytes) : Char × Bytes :=
  match Lead.ofByte byte with
  | some lead => decodeRest lead.value lead.count lead.low lead.high rest
  | none => (replacement, rest)

theorem length_decodeChar_le (byte : UInt8) (rest : Bytes) :
    (decodeChar byte rest).2.length ≤ rest.length := by
  unfold decodeChar
  split
  · exact length_decodeRest_le ..
  · exact Nat.le_refl _

/-- The characters of the bytes. -/
def decodeChars : Bytes → List Char
  | [] => []
  | byte :: rest => (decodeChar byte rest).1 :: decodeChars (decodeChar byte rest).2
termination_by bytes => bytes.length
decreasing_by exact Nat.lt_succ_of_le (length_decodeChar_le ..)

/-- The text of the bytes. -/
def decode (bytes : Bytes) : String := String.ofList (decodeChars bytes)

/-- Two lowercase hexadecimal digits for each byte. -/
def hex (bytes : Bytes) : String :=
  String.ofList (bytes.flatMap fun byte =>
    [Nat.digitChar (byte.toNat / 16), Nat.digitChar (byte.toNat % 16)])

end TinyShell.Text
