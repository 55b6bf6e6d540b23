import Mathlib.Data.Int.ModEq
import Mathlib.Data.List.Basic
import Mathlib.Data.List.TakeWhile
import Mathlib.Data.Nat.Digits.Defs
import TinyShell.Proofs.Text.Pieces
import TinyShell.Text.Numeral
import TinyShell.Proofs.Text.Utf8

/-!
# The number at the start of a text

`readDecimal_numeral`: every text is blanks, at most one sign, a longest run of digits and the rest,
in exactly one way (`Numeral`), and what is read is the only number of 32 bits that is congruent to
the written one modulo 2³². So it is the written one just if that has room in 32 bits.

Numbers of 32 bits are a ring that the integers map onto, so the value of the digits can be followed
in the integers and mapped at the end (`magnitude_eq`). Reading goes by characters; by bytes it
comes to the same (`readDecimal_eq_scan`), for the bytes of a longer character are no digits.
-/

namespace TinyShell.Text

/-! ## Numerals -/

/-- A sign, or none. -/
inductive Sign where
  | absent
  | plus
  | minus
  deriving DecidableEq, Repr

def Sign.chars : Sign → List Char
  | absent => []
  | plus => ['+']
  | minus => ['-']

/-- The sign that a text starts with. -/
def Sign.ofHead : List Char → Sign
  | '+' :: _ => plus
  | '-' :: _ => minus
  | _ => absent

/-- A text as blanks, a sign, digits and a rest. A sign and digits that stand there belong to it. -/
structure Numeral where
  blanks : List Char
  sign : Sign
  digits : List Char
  rest : List Char
  isBlank : ∀ c ∈ blanks, isBlank c
  isDigit : ∀ c ∈ digits, c.isDigit
  unsigned : sign = .absent →
    ∀ c ∈ (digits ++ rest).head?, Text.isBlank c = false ∧ c ≠ '+' ∧ c ≠ '-'
  ended : ∀ c ∈ rest.head?, c.isDigit = false

/-- The number that digits write in decimal; none of them write zero. -/
def writtenNumber (digits : List Char) : Nat :=
  Nat.ofDigits 10 (digits.reverse.map fun c => c.toNat - '0'.toNat)

namespace Numeral

/-- What comes after the blanks. -/
def body (numeral : Numeral) : List Char :=
  numeral.sign.chars ++ (numeral.digits ++ numeral.rest)

def chars (numeral : Numeral) : List Char := numeral.blanks ++ numeral.body

/-- The number that is written. -/
def value (numeral : Numeral) : Int :=
  if numeral.sign = .minus then -writtenNumber numeral.digits else writtenNumber numeral.digits

theorem body_unblank (numeral : Numeral) :
    ∀ c ∈ numeral.body.head?, ¬Text.isBlank c = true := by
  intro c hc
  rcases hs : numeral.sign with _ | _ | _ <;> rw [body, hs] at hc
  · simpa using (numeral.unsigned hs c hc).1
  · obtain rfl : '+' = c := by simpa [Sign.chars] using hc
    decide
  · obtain rfl : '-' = c := by simpa [Sign.chars] using hc
    decide

theorem takeWhile_digits (numeral : Numeral) :
    (numeral.digits ++ numeral.rest).takeWhile Char.isDigit = numeral.digits := by
  rw [List.takeWhile_append_of_pos numeral.isDigit]
  rcases hr : numeral.rest with _ | ⟨c, rest⟩
  · exact List.append_nil _
  · simp [numeral.ended c (by simp [hr])]

/-! ## A text is a numeral in one way -/

theorem exists_body_eq (cs : List Char) (h : ∀ c ∈ cs.head?, Text.isBlank c = false) :
    ∃ numeral : Numeral, numeral.blanks = [] ∧ numeral.body = cs := by
  have hsplit (cs : List Char) : cs.takeWhile Char.isDigit ++ cs.dropWhile Char.isDigit = cs :=
    List.takeWhile_append_dropWhile
  have hdigits (cs : List Char) : ∀ c ∈ cs.takeWhile Char.isDigit, c.isDigit :=
    fun c hc => List.mem_takeWhile_imp hc
  have hended (cs : List Char) : ∀ c ∈ (cs.dropWhile Char.isDigit).head?, c.isDigit = false := by
    intro c hc
    have hhead := List.head?_dropWhile_not Char.isDigit cs
    rw [Option.mem_def.1 hc] at hhead
    exact hhead
  by_cases hplus : cs.head? = some '+'
  · obtain ⟨cs, rfl⟩ := List.head?_eq_some_iff.1 hplus
    exact ⟨⟨[], .plus, _, _, by simp, hdigits cs, nofun, hended cs⟩, rfl, by
      simp [body, Sign.chars, hsplit]⟩
  by_cases hminus : cs.head? = some '-'
  · obtain ⟨cs, rfl⟩ := List.head?_eq_some_iff.1 hminus
    exact ⟨⟨[], .minus, _, _, by simp, hdigits cs, nofun, hended cs⟩, rfl, by
      simp [body, Sign.chars, hsplit]⟩
  · refine ⟨⟨[], .absent, _, _, by simp, hdigits cs, fun _ c hc => ?_, hended cs⟩, rfl, by
      simp [body, Sign.chars, hsplit]⟩
    rw [hsplit] at hc
    exact ⟨h c hc, fun he => hplus (he ▸ hc), fun he => hminus (he ▸ hc)⟩

theorem exists_chars_eq (text : List Char) : ∃ numeral : Numeral, numeral.chars = text := by
  have hhead : ∀ c ∈ (text.dropWhile Text.isBlank).head?, Text.isBlank c = false := by
    intro c hc
    have hhead := List.head?_dropWhile_not Text.isBlank text
    rw [Option.mem_def.1 hc] at hhead
    exact hhead
  obtain ⟨numeral, -, hbody⟩ := exists_body_eq _ hhead
  refine ⟨{ numeral with
    blanks := text.takeWhile Text.isBlank
    isBlank := fun c hc => List.mem_takeWhile_imp hc }, ?_⟩
  change text.takeWhile Text.isBlank ++ numeral.body = text
  rw [hbody, List.takeWhile_append_dropWhile]

theorem sign_eq (numeral : Numeral) : numeral.sign = .ofHead numeral.body := by
  rcases hs : numeral.sign with _ | _ | _
  · have hhead := numeral.unsigned hs
    rw [body, hs]
    change Sign.absent = .ofHead (numeral.digits ++ numeral.rest)
    generalize numeral.digits ++ numeral.rest = cs at hhead ⊢
    cases cs with
    | nil => rfl
    | cons c rest =>
      obtain ⟨-, hplus, hminus⟩ := hhead c rfl
      unfold Sign.ofHead
      split
      · exact absurd (List.cons.inj ‹_›).1 hplus
      · exact absurd (List.cons.inj ‹_›).1 hminus
      · rfl
  · rw [body, hs]
    rfl
  · rw [body, hs]
    rfl

theorem eq_of_body_eq {numeral other : Numeral} (h : numeral.body = other.body) :
    numeral.sign = other.sign ∧ numeral.digits = other.digits ∧ numeral.rest = other.rest := by
  have hsign : numeral.sign = other.sign := by rw [sign_eq, sign_eq, h]
  rw [body, body, hsign] at h
  obtain ⟨hdigits, hrest⟩ := append_inj_of_forall numeral.isDigit other.isDigit
    (fun c hc => by simpa using numeral.ended c hc) (fun c hc => by simpa using other.ended c hc)
    (List.append_cancel_left h)
  exact ⟨hsign, hdigits, hrest⟩

theorem eq_of_chars_eq {numeral other : Numeral} (h : numeral.chars = other.chars) :
    numeral = other := by
  obtain ⟨hblanks, hbody⟩ := append_inj_of_forall numeral.isBlank other.isBlank
    numeral.body_unblank other.body_unblank h
  obtain ⟨hsign, hdigits, hrest⟩ := eq_of_body_eq hbody
  cases numeral
  cases other
  simp_all

end Numeral

/-! ## Its value -/

theorem digitValue_eq (c : Char) : digitValue c = Int32.ofInt ((c.toNat - '0'.toNat : Nat) : Int) :=
  Int32.ofInt_eq_ofNat.symm

/-- The digits can be read in the integers, and the number taken modulo 2³² at the end. -/
theorem magnitude_eq (digits : List Char) :
    magnitude digits = Int32.ofInt (writtenNumber digits) := by
  have hfold (value : Nat) : digits.foldl (fun value c => value * 10 + digitValue c)
      (Int32.ofInt value) = Int32.ofInt
        (digits.foldl (fun value c => c.toNat - '0'.toNat + 10 * value) value : Nat) := by
    induction digits generalizing value with
    | nil => rfl
    | cons c digits ih =>
      rw [List.foldl_cons, List.foldl_cons, ← ih]
      congr 1
      rw [digitValue_eq, Nat.cast_add, Nat.cast_mul, Int32.ofInt_add, Int32.ofInt_mul,
        Int32.add_comm, Int32.mul_comm]
      rfl
  rw [magnitude, writtenNumber, Nat.ofDigits_eq_foldr, List.foldr_map, List.foldr_reverse]
  exact hfold 0

theorem dropWhile_chars (numeral : Numeral) :
    numeral.chars.dropWhile isBlank = numeral.body := by
  rw [Numeral.chars, List.dropWhile_append_of_pos numeral.isBlank]
  have hhead := numeral.body_unblank
  generalize numeral.body = cs at hhead ⊢
  cases cs with
  | nil => rfl
  | cons c rest => exact List.dropWhile_cons_of_neg (hhead c rfl)

theorem readDecimal_chars (numeral : Numeral) :
    readDecimal numeral.chars = Int32.ofInt numeral.value := by
  rw [readDecimal, dropWhile_chars, Numeral.body, Numeral.value]
  rcases hs : numeral.sign with _ | _ | _
  · have hhead := numeral.unsigned hs
    simp only [Sign.chars, List.nil_append, reduceCtorEq, if_false]
    split
    · rename_i heq
      exact absurd rfl (hhead '-' (by simp [heq])).2.2
    · rename_i heq
      exact absurd rfl (hhead '+' (by simp [heq])).2.1
    · rw [numeral.takeWhile_digits, magnitude_eq]
  · simp [Sign.chars, numeral.takeWhile_digits, magnitude_eq]
  · simp [Sign.chars, numeral.takeWhile_digits, magnitude_eq]

/-! ## Reading by bytes -/

def isDigitByte (byte : UInt8) : Bool := 0x30 ≤ byte && byte ≤ 0x39

/-- The value of the digits that bytes start with, modulo 2³². -/
def scanDigits (bytes : Bytes) : Int32 :=
  (bytes.takeWhile isDigitByte).foldl
    (fun value byte => value * 10 + Int32.ofNat (byte.toNat - 0x30)) 0

/-- The number at the start of bytes without blanks before it. -/
def scanDecimal : Bytes → Int32
  | 0x2d :: rest => -scanDigits rest
  | 0x2b :: rest => scanDigits rest
  | bytes => scanDigits bytes

theorem encodeChar_of_lt {c : Char} (h : c.toNat < 128) :
    String.utf8EncodeChar c = [UInt8.ofNat c.toNat] := by
  rw [String.utf8EncodeChar]
  exact if_pos (Nat.le_of_lt_succ h)

/-- The first byte of a longer character is not that of a short one. -/
theorem encodeChar_of_le {c : Char} (h : 128 ≤ c.toNat) :
    ∃ byte others, String.utf8EncodeChar c = byte :: others ∧ 128 ≤ byte.toNat := by
  change 128 ≤ c.val.toNat at h
  rw [String.utf8EncodeChar]
  generalize c.val.toNat = n at h
  split
  · omega
  split
  · refine ⟨_, _, rfl, ?_⟩
    rw [toNat_ofNat] <;> omega
  split
  · refine ⟨_, _, rfl, ?_⟩
    rw [toNat_ofNat] <;> omega
  · refine ⟨_, _, rfl, ?_⟩
    rw [toNat_ofNat] <;> omega

/-- A character is told by its first byte from those of one byte. -/
theorem encodeChar_append_ne {c d : Char} (hd : d.toNat < 128) (hne : c ≠ d)
    (others rest : Bytes) : String.utf8EncodeChar c ++ others ≠ UInt8.ofNat d.toNat :: rest := by
  have hbyte : (UInt8.ofNat d.toNat).toNat = d.toNat := toNat_ofNat (by omega)
  intro h
  rcases Nat.lt_or_ge c.toNat 128 with hshort | hlong
  · rw [encodeChar_of_lt hshort] at h
    have hsame := congrArg UInt8.toNat (List.cons.inj h).1
    rw [hbyte, toNat_ofNat (by omega)] at hsame
    exact hne (Char.toNat_inj.1 hsame)
  · obtain ⟨byte, more, hbytes, hlarge⟩ := encodeChar_of_le hlong
    rw [hbytes] at h
    obtain rfl := (List.cons.inj h).1
    omega

theorem isDigit_iff {c : Char} : c.isDigit ↔ 48 ≤ c.toNat ∧ c.toNat ≤ 57 :=
  Char.isDigit_iff_toNat

/-- The digits among the bytes are those among the characters. -/
theorem takeWhile_encode (cs : List Char) :
    (cs.flatMap String.utf8EncodeChar).takeWhile isDigitByte =
      (cs.takeWhile Char.isDigit).map fun c => UInt8.ofNat c.toNat := by
  induction cs with
  | nil => rfl
  | cons c cs ih =>
    rw [List.flatMap_cons]
    rcases Nat.lt_or_ge c.toNat 128 with hshort | hlong
    · rw [encodeChar_of_lt hshort, List.singleton_append]
      have hsame : isDigitByte (UInt8.ofNat c.toNat) = c.isDigit := by
        rw [Bool.eq_iff_iff, isDigit_iff, isDigitByte, Bool.and_eq_true,
          decide_eq_true_iff, decide_eq_true_iff, UInt8.le_iff_toNat_le, UInt8.le_iff_toNat_le,
          toNat_ofNat (by omega)]
        rfl
      cases hd : c.isDigit with
      | true =>
        rw [List.takeWhile_cons_of_pos (hsame.trans hd), List.takeWhile_cons_of_pos hd, ih,
          List.map_cons]
      | false => simp [hsame, hd]
    · obtain ⟨byte, others, hbytes, hlarge⟩ := encodeChar_of_le hlong
      have hbyte : isDigitByte byte = false := by
        rw [isDigitByte, Bool.and_eq_false_iff]
        refine .inr (decide_eq_false fun hle => ?_)
        have := UInt8.le_iff_toNat_le.1 hle
        change byte.toNat ≤ 57 at this
        omega
      have hchar : c.isDigit = false := by
        rw [← Bool.not_eq_true, isDigit_iff]
        omega
      simp [hbytes, hbyte, hchar]

theorem scanDigits_encode (cs : List Char) :
    scanDigits (cs.flatMap String.utf8EncodeChar) = magnitude (cs.takeWhile Char.isDigit) := by
  rw [scanDigits, takeWhile_encode, magnitude, List.foldl_map]
  refine List.foldl_ext _ _ _ fun value c hc => ?_
  have hrange := isDigit_iff.1 (List.mem_takeWhile_imp hc)
  rw [toNat_ofNat (by omega)]
  rfl

/-- It does not matter that a sign or a digit is looked for among bytes. -/
theorem readDecimal_eq_scan (text : List Char) : readDecimal text =
    scanDecimal ((text.dropWhile isBlank).flatMap String.utf8EncodeChar) := by
  rw [readDecimal]
  split
  · rename_i rest hbody
    rw [hbody, ← scanDigits_encode]
    rfl
  · rename_i rest hbody
    rw [hbody, ← scanDigits_encode]
    rfl
  · rename_i hminus hplus
    rw [← scanDigits_encode]
    generalize text.dropWhile isBlank = cs at hminus hplus
    cases cs with
    | nil => rfl
    | cons c cs =>
      have hminus : c ≠ '-' := fun he => hminus cs (by rw [he])
      have hplus : c ≠ '+' := fun he => hplus cs (by rw [he])
      rw [List.flatMap_cons]
      unfold scanDecimal
      split
      · rename_i heq
        exact absurd heq (encodeChar_append_ne (by decide) hminus _ _)
      · rename_i heq
        exact absurd heq (encodeChar_append_ne (by decide) hplus _ _)
      · rfl

/-! ## The number of 32 bits -/

/-- Of the numbers of 32 bits, one is congruent to an integer. -/
theorem eq_ofInt_iff (n : Int32) (value : Int) :
    n = Int32.ofInt value ↔ n.toInt ≡ value [ZMOD 2 ^ 32] := by
  constructor
  · rintro rfl
    rw [Int32.toInt_ofInt]
    exact Int.bmod_emod
  · intro h
    rw [eq_comm, Int32.ofInt_eq_iff_bmod_eq_toInt, ← Int.emod_bmod]
    have hmod : value % ((2 ^ 32 : Nat) : Int) = n.toInt % ((2 ^ 32 : Nat) : Int) := h.symm
    rw [hmod, Int.emod_bmod]
    exact Int32.toInt_bmod n

/-- An integer is kept just if it has room. -/
theorem toInt_ofInt_eq_iff (value : Int) :
    (Int32.ofInt value).toInt = value ↔ -2 ^ 31 ≤ value ∧ value < 2 ^ 31 := by
  constructor
  · intro h
    rw [← h]
    exact ⟨Int32.le_toInt _, Int32.toInt_lt _⟩
  · rintro ⟨hlow, hhigh⟩
    exact Int32.toInt_ofInt_of_le hlow hhigh

/-- Every text is a numeral in exactly one way. The number that is read is the one of 32 bits that
is congruent to the written one modulo 2³², and equal to it just if that has room; byte by byte it
is the same. -/
theorem readDecimal_numeral (text : List Char) :
    ∃ numeral : Numeral, numeral.chars = text ∧
      (∀ other : Numeral, other.chars = text → other = numeral) ∧
      (∀ n : Int32, n = readDecimal text ↔ n.toInt ≡ numeral.value [ZMOD 2 ^ 32]) ∧
      ((readDecimal text).toInt = numeral.value ↔
        -2 ^ 31 ≤ numeral.value ∧ numeral.value < 2 ^ 31) ∧
      readDecimal text = scanDecimal (numeral.body.flatMap String.utf8EncodeChar) := by
  obtain ⟨numeral, rfl⟩ := Numeral.exists_chars_eq text
  refine ⟨numeral, rfl, fun other h => Numeral.eq_of_chars_eq h, ?_, ?_, ?_⟩
  · intro n
    rw [readDecimal_chars, eq_ofInt_iff]
  · rw [readDecimal_chars, toInt_ofInt_eq_iff]
  · rw [readDecimal_eq_scan, dropWhile_chars]

/-- The least number, between a blank of three bytes and a character of two. -/
example : readDecimal "\u2003-2147483648é7".toList = -2147483648 := by decide

end TinyShell.Text
