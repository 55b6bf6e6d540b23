import TinyShell.Machine.Sh.Pattern

/-!
# Fields

What an expanded word consists of, and how it falls into fields where separators stand.
-/

namespace TinyShell.Machine.Sh

/-- A bit of an expanded word. -/
inductive Bit where
  /-- A character; a separator that `splits` ends a field. -/
  | char (c : Char) (quoted splits : Bool)
  /-- A quote: the field that it stands in is there even if it is empty. -/
  | quote
  /-- The place between two parameters. -/
  | cut
  /-- What comes next came from one expansion; `exact` if it ends fields only between
  parameters. -/
  | region (exact : Bool)
  deriving DecidableEq, Repr, Inhabited

/-- The characters of bits. -/
def bitsText (bits : List Bit) : String :=
  String.ofList (bits.filterMap fun
    | .char c _ _ => some c
    | _ => none)

/-- The characters of bits, with whether they are quoted. -/
def bitsMarked (bits : List Bit) : List Marked :=
  bits.filterMap fun
    | .char c quoted _ => some (c, quoted)
    | _ => none

/-- Whether a separator counts only between other things. -/
def isBlankSeparator (c : Char) : Bool := c = ' ' || c = '\t' || c = '\n'

/-- Fields that are being put together. -/
structure Splitting where
  /-- The fields that are complete, the last one first. -/
  fields : List (List Bit) := []
  /-- The field that has begun, its last bit first. -/
  current : List Bit := []
  /-- Whether blank separators have just ended a field. -/
  blank : Bool := false
  /-- Whether the region, and the one before it, is exact. -/
  exact : Bool := false
  formerExact : Bool := false
  /-- How many more fields there may be, the last one with all that is left. -/
  left : Option Nat := none
  /-- The last field without the separators at its end. -/
  trimmed : Option (List Bit) := none
  deriving Inhabited

namespace Splitting

/-- A bit that belongs to the current field whatever it is. -/
def keep (state : Splitting) (bit : Bit) : Splitting :=
  { state with current := bit :: state.current }

/-- A bit in the last field, which takes all that is left. Separators at its end are left out;
but it keeps them if there is more than one that is not blank. -/
def inLast (state : Splitting) (bit : Bit) (separates isBlank : Bool) : Splitting :=
  if isBlank then
    { state with trimmed := some (state.trimmed.getD state.current) }.keep bit
  else
    let trimmed := if separates && state.blank then state.trimmed else none
    { state with trimmed, blank := false }.keep bit

/-- A separator that ends a field, or is passed over at the start of one. -/
def separator (state : Splitting) (bit : Bit) (isBlank : Bool) : Splitting :=
  let state := if state.exact then state else { state with blank := isBlank }
  if state.current.isEmpty && state.blank && !state.formerExact then { state with blank := false }
  else
    match state.left with
    | some 1 => { state with left := some 0, trimmed := some state.current }.keep bit
    | left =>
      { state with
        fields := state.current :: state.fields, current := [], left := left.map (· - 1) }

/-- A bit that may end a field. -/
def add (state : Splitting) (bit : Bit) (separates isBlank : Bool) : Splitting :=
  if state.left = some 0 then state.inLast bit separates isBlank
  else if state.blank then
    -- One separator that is not blank belongs to the blank ones before it.
    if isBlank then { state with current := [] }
    else if separates then { state with current := [], blank := false }
    else { state with current := [bit], blank := false }
  else if separates then state.separator bit isBlank
  else { state with blank := false }.keep bit

/-- One more bit. -/
def next (separators : String) (state : Splitting) (bit : Bit) : Splitting :=
  match bit with
  | .region exact => { state with formerExact := state.exact, exact, blank := false }
  | .quote => state.keep bit
  | .cut => state.add bit true true
  | .char c _ splits =>
    if splits then
      let separates := !state.exact && separators.contains c
      state.add bit separates (separates && isBlankSeparator c)
    else state.keep bit

/-- All fields. -/
def finish (state : Splitting) : List (List Bit) :=
  let last := if state.exact then some state.current
    else
      let current := state.trimmed.getD state.current
      if current.isEmpty then none else some current
  ((last.toList ++ state.fields).map List.reverse).reverse

end Splitting

/-- The fields that bits fall into; at most so many if a `limit` is given. -/
def splitFields (separators : String) (limit : Option Nat) (bits : List Bit) : List (List Bit) :=
  let start : Splitting := { left := limit }
  (bits.foldl (Splitting.next separators) start).finish

end TinyShell.Machine.Sh
