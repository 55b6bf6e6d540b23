import TinyShell.Text.Lines
import TinyShell.Text.Numeral

/-!
# Where a piece ends

Texts that were put together can be taken apart again if each piece tells where it ends: because
what follows is of another sort (`append_inj_of_forall`), because it starts with a character that
the piece does not have (`append_inj_of_not_mem`), or by what it says itself (`SelfDelimiting`). So
a text is the items that it was joined from, if none of them has the separator in it
(`intercalate_inj`), and the lines that it was made of, if none of them has a newline in it
(`unlines_inj`).
-/

namespace TinyShell.Text

/-! ## Sequences -/

/-- Members of one sort, and then something that does not start with one. -/
theorem append_inj_of_forall {α : Type} {p : α → Prop} {xs ys s t : List α}
    (hx : ∀ a ∈ xs, p a) (hy : ∀ a ∈ ys, p a) (hs : ∀ a ∈ s.head?, ¬p a)
    (ht : ∀ a ∈ t.head?, ¬p a) (h : xs ++ s = ys ++ t) : xs = ys ∧ s = t := by
  induction xs generalizing ys with
  | nil =>
    cases ys with
    | nil => exact ⟨rfl, h⟩
    | cons b ys =>
      have hb : b ∈ s.head? := by simp [show s = b :: (ys ++ t) from h]
      exact absurd (hy b List.mem_cons_self) (hs b hb)
  | cons a xs ih =>
    cases ys with
    | nil =>
      have ha : a ∈ t.head? := by simp [← show a :: (xs ++ s) = t from h]
      exact absurd (hx a List.mem_cons_self) (ht a ha)
    | cons b ys =>
      obtain ⟨rfl, hrest⟩ := List.cons.inj h
      obtain ⟨rfl, htail⟩ := ih (fun c hc => hx c (List.mem_cons_of_mem a hc))
        (fun c hc => hy c (List.mem_cons_of_mem a hc)) hrest
      exact ⟨rfl, htail⟩

theorem forall_mem_head?_append {α : Type} {p : α → Prop} {xs s : List α} (hx : ∀ a ∈ xs, p a)
    (hs : ∀ a ∈ s.head?, p a) : ∀ a ∈ (xs ++ s).head?, p a := by
  cases xs with
  | nil => exact hs
  | cons b xs =>
    intro a ha
    obtain rfl : b = a := by simpa using ha
    exact hx b List.mem_cons_self

/-- What is written for the item tells the item and where it ends, among items of this sort. -/
def SelfDelimiting {α β : Type} (write : α → List β) (sort : α → Prop) (item : α) : Prop :=
  ∀ {other : α} {rest rest' : List β}, sort other → write item ++ rest = write other ++ rest' →
    item = other ∧ rest = rest'

/-- As many items as there are others. -/
theorem flatMap_append_inj {α β : Type} {write : α → List β} {sort : α → Prop} {xs ys : List α}
    {rest rest' : List β} (hx : ∀ a ∈ xs, SelfDelimiting write sort a) (hy : ∀ b ∈ ys, sort b)
    (hl : xs.length = ys.length) (h : xs.flatMap write ++ rest = ys.flatMap write ++ rest') :
    xs = ys ∧ rest = rest' := by
  induction xs generalizing ys with
  | nil =>
    obtain rfl := List.length_eq_zero_iff.1 hl.symm
    exact ⟨rfl, h⟩
  | cons a xs ih =>
    cases ys with
    | nil => cases hl
    | cons b ys =>
      obtain ⟨ha, hxs⟩ := List.forall_mem_cons.1 hx
      obtain ⟨hb, hys⟩ := List.forall_mem_cons.1 hy
      rw [List.flatMap_cons, List.flatMap_cons, List.append_assoc, List.append_assoc] at h
      obtain ⟨rfl, hothers⟩ := ha hb h
      obtain ⟨rfl, htail⟩ := ih hxs hys (Nat.succ.inj hl) hothers
      exact ⟨rfl, htail⟩

/-- Sequences made of others, member by member, if each member can be told from its place and what
was made of it. -/
theorem mapIdx_inj {α β : Type} {f : Nat → α → β} {xs ys : List α}
    (hf : ∀ i, ∀ a ∈ xs, ∀ b ∈ ys, f i a = f i b → a = b) (h : xs.mapIdx f = ys.mapIdx f) :
    xs = ys := by
  induction xs generalizing f ys with
  | nil =>
    cases ys with
    | nil => rfl
    | cons b ys => simp at h
  | cons a xs ih =>
    cases ys with
    | nil => simp at h
    | cons b ys =>
      rw [List.mapIdx_cons, List.mapIdx_cons] at h
      obtain ⟨hfirst, hrest⟩ := List.cons.inj h
      rw [hf 0 a List.mem_cons_self b List.mem_cons_self hfirst,
        ih (fun i c hc d hd => hf (i + 1) c (.tail _ hc) d (.tail _ hd)) hrest]

/-! ## Texts -/

/-- Nothing, or something that starts with this character. -/
def StartsWith (c : Char) (text : String) : Prop := ∀ d ∈ text.toList.head?, d = c

theorem startsWith_append {c : Char} {first : String} (h : first.toList.head? = some c)
    (rest : String) : StartsWith c (first ++ rest) := by
  intro d hd
  simpa [h, eq_comm] using hd

/-- Up to a character that neither piece has. -/
theorem append_inj_of_not_mem {c : Char} {a b s t : String} (ha : c ∉ a.toList)
    (hb : c ∉ b.toList) (hs : StartsWith c s) (ht : StartsWith c t) (h : a ++ s = b ++ t) :
    a = b ∧ s = t := by
  have hne {text : String} (hc : c ∉ text.toList) : ∀ d ∈ text.toList, d ≠ c :=
    fun d hd he => hc (he ▸ hd)
  have hlist : a.toList ++ s.toList = b.toList ++ t.toList := by
    rw [← String.toList_append, h, String.toList_append]
  obtain ⟨hab, hst⟩ := append_inj_of_forall (hne ha) (hne hb)
    (fun d hd => not_not_intro (hs d hd)) (fun d hd => not_not_intro (ht d hd)) hlist
  exact ⟨String.toList_injective hab, String.toList_injective hst⟩

/-- Numbers are written in digits alone. -/
theorem not_mem_repr {c : Char} (hc : c.isDigit = false) (n : Nat) : c ∉ n.repr.toList := by
  intro h
  rw [Nat.toList_repr] at h
  have hdigit := Nat.isDigit_of_mem_toDigits (by decide) (by decide) h
  rw [hc] at hdigit
  cases hdigit

/-- Signed ones may have a sign as well. -/
theorem not_mem_decimal {c : Char} (hc : c.isDigit = false) (hs : c ≠ '-') (value : Int32) :
    c ∉ (decimal value).toList := by
  have hint : ∀ n : Int, c ∉ n.repr.toList
    | .ofNat n => not_mem_repr hc n
    | .negSucc n => by simpa [Int.repr, hs] using not_mem_repr hc n.succ
  exact hint value.toInt

theorem repr_inj {m n : Nat} (h : m.repr = n.repr) : m = n := by
  have hvalue (n : Nat) : Nat.ofDigitChars 10 n.repr.toList 0 = n := by
    rw [Nat.toList_repr, Nat.ofDigitChars_toDigits (by decide) (by decide)]
  rw [← hvalue m, h, hvalue n]

theorem decimal_injective {value other : Int32} (h : decimal value = decimal other) :
    value = other := by
  have hsign (m n : Nat) : m.repr ≠ "-" ++ n.repr := fun he =>
    not_mem_repr (c := '-') rfl m (he ▸ by simp)
  have hint : ∀ m n : Int, m.repr = n.repr → m = n
    | .ofNat m, .ofNat n, h => congrArg Int.ofNat (repr_inj h)
    | .negSucc m, .negSucc n, h => by
      have hdigits : m.succ.repr = n.succ.repr := (String.append_right_inj "-").1 h
      rw [Nat.succ.inj (repr_inj hdigits)]
    | .ofNat m, .negSucc n, h => absurd h (hsign m n.succ)
    | .negSucc m, .ofNat n, h => absurd h.symm (hsign n m.succ)
  exact Int32.toInt_inj.1 (hint _ _ h)

/-! ## Items -/

theorem not_mem_intercalate {c : Char} {separator : String} {items : List String}
    (hs : c ∉ separator.toList) (h : ∀ item ∈ items, c ∉ item.toList) :
    c ∉ (separator.intercalate items).toList := by
  induction items with
  | nil => simp [String.intercalate]
  | cons item rest ih =>
    obtain ⟨hitem, hrest⟩ := List.forall_mem_cons.1 h
    cases rest with
    | nil => simpa [String.intercalate_singleton] using hitem
    | cons next rest =>
      simp only [String.intercalate_cons_cons, String.toList_append, List.mem_append, not_or]
      exact ⟨⟨hitem, hs⟩, ih hrest⟩

/-- An item, and then nothing or a separator. -/
theorem intercalate_cons (separator item : String) (rest : List String) :
    separator.intercalate (item :: rest) =
      item ++ if rest = [] then "" else separator ++ separator.intercalate rest := by
  cases rest with
  | nil => simp [String.intercalate_singleton]
  | cons next rest => simp [String.intercalate_cons_cons, String.append_assoc]

/-- The items of a text are those that it was joined from. -/
theorem intercalate_inj {c : Char} {separator : String} (hc : separator.toList.head? = some c)
    {first second : List String} (hf : ∀ item ∈ first, c ∉ item.toList)
    (hs : ∀ item ∈ second, c ∉ item.toList) (hne : first ≠ []) (hne' : second ≠ [])
    (h : separator.intercalate first = separator.intercalate second) : first = second := by
  have hbreak (rest : List String) :
      StartsWith c (if rest = [] then "" else separator ++ separator.intercalate rest) := by
    intro d hd
    split at hd
    · simp at hd
    · exact startsWith_append hc _ d hd
  have hsep (text : String) : separator ++ text ≠ "" := by
    intro he
    have hempty : separator = "" := (String.append_eq_empty_iff.1 he).1
    simp [hempty] at hc
  induction first generalizing second with
  | nil => exact absurd rfl hne
  | cons item rest ih =>
    obtain ⟨item', rest', rfl⟩ := List.exists_cons_of_ne_nil hne'
    obtain ⟨hitem, hrest⟩ := List.forall_mem_cons.1 hf
    obtain ⟨hitem', hrest'⟩ := List.forall_mem_cons.1 hs
    rw [intercalate_cons, intercalate_cons] at h
    obtain ⟨rfl, htail⟩ := append_inj_of_not_mem hitem hitem' (hbreak rest) (hbreak rest') h
    split at htail <;> split at htail
    · simp [*]
    · exact absurd htail.symm (hsep _)
    · exact absurd htail (hsep _)
    · rename_i hr hr'
      rw [ih hrest hrest' hr hr' ((String.append_right_inj separator).1 htail)]

/-! ## Lines -/

/-- The text fits on one line. -/
def OneLine (text : String) : Prop := '\n' ∉ text.toList

instance (text : String) : Decidable (OneLine text) :=
  inferInstanceAs (Decidable ('\n' ∉ text.toList))

@[simp]
theorem oneLine_append {first second : String} :
    OneLine (first ++ second) ↔ OneLine first ∧ OneLine second := by
  simp [OneLine]

@[simp]
theorem oneLine_repr (n : Nat) : OneLine n.repr := not_mem_repr rfl n

@[simp]
theorem oneLine_decimal (value : Int32) : OneLine (decimal value) :=
  not_mem_decimal rfl (by decide) value

theorem unlines_cons (line : String) (rest : List String) :
    unlines (line :: rest) = line ++ ("\n" ++ unlines rest) := by
  refine String.toList_injective ?_
  simp [unlines]

/-- Even an empty line is there. -/
theorem unlines_cons_ne_nil (line : String) (rest : List String) :
    unlines (line :: rest) ≠ unlines [] := by
  rw [unlines_cons]
  intro h
  have hlength := congrArg (fun text => text.toList.length) h
  simp [unlines] at hlength

/-- The lines of a text are those that it was made of. -/
theorem unlines_inj {first second : List String} (hf : ∀ line ∈ first, OneLine line)
    (hs : ∀ line ∈ second, OneLine line) (h : unlines first = unlines second) :
    first = second := by
  have hbreak (rest : List String) : StartsWith '\n' ("\n" ++ unlines rest) :=
    startsWith_append rfl _
  induction first generalizing second with
  | nil =>
    cases second with
    | nil => rfl
    | cons line rest => exact absurd h.symm (unlines_cons_ne_nil line rest)
  | cons line rest ih =>
    cases second with
    | nil => exact absurd h (unlines_cons_ne_nil line rest)
    | cons line' rest' =>
      obtain ⟨hline, hrest⟩ := List.forall_mem_cons.1 hf
      obtain ⟨hline', hrest'⟩ := List.forall_mem_cons.1 hs
      rw [unlines_cons, unlines_cons] at h
      obtain ⟨rfl, htail⟩ := append_inj_of_not_mem hline hline' (hbreak rest) (hbreak rest') h
      rw [ih hrest hrest' ((String.append_right_inj "\n").1 htail)]

end TinyShell.Text
