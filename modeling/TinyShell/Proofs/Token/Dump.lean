import TinyShell.Proofs.Text.Pieces
import TinyShell.Proofs.Token.Factoring

/-!
# Tokens and their dump

`TokenList.dump_inj`: the tokens of a line can be told from their dump. What a word consists of
might look like any part of a dump, but there is no gap in it (`Token.Plain`), so it ends at the
next space, and no line of the dump is broken by it.
-/

namespace TinyShell

open Text (StartsWith OneLine append_inj_of_not_mem)

namespace TokenKind

theorem space_not_mem_name (kind : TokenKind) : ' ' ∉ kind.name.toList := by
  cases kind <;> decide

theorem oneLine_name (kind : TokenKind) : OneLine kind.name := by
  cases kind <;> decide

theorem name_injective {kind other : TokenKind} (h : kind.name = other.name) : kind = other := by
  revert h
  cases kind <;> cases other <;> decide

end TokenKind

namespace Token

/-- The text of a word has no gaps, and a symbol has no text. -/
structure Plain (token : Token) : Prop where
  gapless : ∀ c ∈ token.value.toList, isGap c = false
  symbol : token.isWord = false → token.value = ""

theorem plain_of_mem {line : String} {token : Token} (h : token ∈ (TokenList.ofLine line).tokens) :
    token.Plain := by
  obtain ⟨lexeme, rfl⟩ := TokenList.exists_lexeme_of_mem h
  cases lexeme with
  | append => exact ⟨by simp [Lexeme.token, Token.symbol], fun _ => rfl⟩
  | symbol c hc => exact ⟨by simp [Lexeme.token, Token.symbol], fun _ => rfl⟩
  | word first others hw =>
    refine ⟨fun c hc => ?_, fun hn => by cases hn⟩
    rw [Lexeme.token, Token.word, String.toList_ofList] at hc
    exact (isWordChar_iff.1 (hw c hc)).1

theorem Plain.not_mem {token : Token} (h : token.Plain) {c : Char} (hc : isGap c) :
    c ∉ token.value.toList := by
  intro hm
  rw [h.gapless c hm] at hc
  cases hc

/-- What a line of a dump says of a token after its kind. -/
def details (token : Token) : String :=
  if token.isWord then
    " value=" ++ (token.value ++ (" len=" ++ toString token.value.utf8ByteSize))
  else
    ""

theorem dumpLine_eq (index : Nat) (token : Token) : token.dumpLine index =
    "\tToken[" ++ toString index ++ "]: " ++ (token.kind.name ++ token.details) := by
  unfold dumpLine details
  split
  · simp only [String.append_assoc]
  · rw [String.append_empty]

theorem startsWith_details (token : Token) : StartsWith ' ' token.details := by
  unfold details
  intro c hc
  split at hc
  · exact Text.startsWith_append rfl _ c hc
  · simp at hc

theorem details_inj {first second : Token} (hf : first.Plain) (hs : second.Plain)
    (hk : first.kind = second.kind) (h : first.details = second.details) :
    first.value = second.value := by
  have hsame : first.isWord = second.isWord := by rw [isWord, isWord, hk]
  have hlen (n : Nat) : StartsWith ' ' (" len=" ++ toString n) := Text.startsWith_append rfl _
  by_cases hw : first.isWord
  · rw [details, details, if_pos hw, if_pos (hsame ▸ hw), String.append_right_inj] at h
    exact (append_inj_of_not_mem (hf.not_mem rfl) (hs.not_mem rfl) (hlen _) (hlen _) h).1
  · rw [hf.symbol (by simpa using hw), hs.symbol (by simpa [← hsame] using hw)]

/-- At the same place of two dumps, the same line is about the same token. -/
theorem dumpLine_inj {index : Nat} {first second : Token} (hf : first.Plain) (hs : second.Plain)
    (h : first.dumpLine index = second.dumpLine index) : first = second := by
  rw [dumpLine_eq, dumpLine_eq, String.append_right_inj] at h
  obtain ⟨hname, hdetails⟩ := append_inj_of_not_mem first.kind.space_not_mem_name
    second.kind.space_not_mem_name first.startsWith_details second.startsWith_details h
  have hkind := TokenKind.name_injective hname
  have hvalue := details_inj hf hs hkind hdetails
  cases first
  cases second
  cases hkind
  cases hvalue
  rfl

theorem Plain.oneLine_dumpLine {token : Token} (h : token.Plain) (index : Nat) :
    OneLine (token.dumpLine index) := by
  have hvalue : OneLine token.value := h.not_mem rfl
  rw [dumpLine_eq, details]
  split <;> simp [hvalue, token.kind.oneLine_name] <;> decide

end Token

namespace TokenList

/-- The note at the end of a dump from which tokens are missing. -/
def notes (list : TokenList) : List String :=
  if list.truncated then ["\t(truncated at " ++ toString maxTokens ++ ")"] else []

theorem dumpLines_eq (list : TokenList) :
    list.dumpLines = "Tokens" :: (list.tokens.mapIdx Token.dumpLine ++ list.notes) := rfl

theorem oneLine_dumpLines {list : TokenList} (h : ∀ token ∈ list.tokens, token.Plain) :
    ∀ line ∈ list.dumpLines, OneLine line := by
  rw [dumpLines_eq, List.forall_mem_cons, List.forall_mem_append]
  refine ⟨by decide, fun line hl => ?_, fun line hl => ?_⟩
  · obtain ⟨i, hi, rfl⟩ := List.mem_mapIdx.1 hl
    exact (h _ (List.getElem_mem hi)).oneLine_dumpLine i
  · unfold notes at hl
    split at hl
    · obtain rfl := List.mem_singleton.1 hl
      decide
    · cases hl

theorem notes_inj {first second : TokenList} (h : first.notes = second.notes) :
    first.truncated = second.truncated := by
  unfold notes at h
  cases hf : first.truncated <;> cases hs : second.truncated <;> simp [hf, hs] at h ⊢

/-- A line about a token has a letter where the note has a bracket. -/
theorem mark_of_mem_mapIdx {tokens : List Token} :
    ∀ line ∈ tokens.mapIdx Token.dumpLine, line.toList[1]? = some 'T' := by
  intro line hl
  obtain ⟨i, -, rfl⟩ := List.mem_mapIdx.1 hl
  simp [Token.dumpLine_eq]

theorem mark_notes (list : TokenList) :
    ∀ line ∈ list.notes.head?, ¬line.toList[1]? = some 'T' := by
  intro line hl
  unfold notes at hl
  split at hl
  · obtain rfl : _ = line := by simpa using hl
    simp
  · cases hl

/-- A dump of plain tokens is a dump of nothing else. -/
theorem dump_inj {first second : TokenList} (hf : ∀ token ∈ first.tokens, token.Plain)
    (hs : ∀ token ∈ second.tokens, token.Plain) (h : first.dump = second.dump) :
    first = second := by
  have hlines := Text.unlines_inj (oneLine_dumpLines hf) (oneLine_dumpLines hs) h
  rw [dumpLines_eq, dumpLines_eq] at hlines
  obtain ⟨hmapped, hnotes⟩ := Text.append_inj_of_forall mark_of_mem_mapIdx mark_of_mem_mapIdx
    first.mark_notes second.mark_notes (List.cons.inj hlines).2
  have hplace (i : Nat) : ∀ token ∈ first.tokens, ∀ other ∈ second.tokens,
      token.dumpLine i = other.dumpLine i → token = other := fun token ht other ho =>
    Token.dumpLine_inj (hf token ht) (hs other ho)
  have htokens := Text.mapIdx_inj hplace hmapped
  have htruncated := notes_inj hnotes
  cases first
  cases second
  cases htokens
  cases htruncated
  rfl

end TokenList

end TinyShell
