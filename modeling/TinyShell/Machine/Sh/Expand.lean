import TinyShell.Machine.Sh.Arithmetic
import TinyShell.Machine.Sh.Field
import TinyShell.Machine.Sh.Glob

/-!
# Expanding words

What a word stands for: parameters, the output of commands, results of arithmetic and home
directories take the places where they are named, and what comes out may fall into several fields.
-/

namespace TinyShell.Machine.Sh

/-! ## Parameters -/

/-- The value of a parameter. -/
inductive Value where
  | absent
  | text (text : String)
  /-- All positional parameters. -/
  | all
  deriving DecidableEq, Repr, Inhabited

/-- The value of the parameter of a name. -/
def Env.parameter (env : Env) (name : String) : Value :=
  let known (value : Option String) : Value := match value with
    | some text => .text text
    | none => .absent
  match name with
  | "@" | "*" => .all
  | "#" => .text (toString env.parameters.length)
  | "?" => .text (toString env.status)
  | "$" => .text (toString env.pid)
  | "!" => known (env.background.map toString)
  | "-" => .text env.optionLetters
  | "0" => .text env.name
  | name =>
    if name.toList.all Char.isDigit then
      match Tool.digitsValue name.toList with
      | 0 => .text env.name
      | n + 1 => known env.parameters[n]?
    else known (env.value? name)

/-- How a word is expanded. -/
structure Manner where
  /-- Whether there can be several fields. -/
  full : Bool
  /-- Whether plain characters may end fields too. -/
  splits : Bool := false
  deriving Inhabited

/-- Characters that stand for themselves, whatever they are. -/
def quotedBits (text : String) : List Bit := text.toList.map (.char · true false)

/-- The bits of a text that was put in the place of something. -/
def valueBits (quoted : Bool) (text : String) : List Bit :=
  if quoted then quotedBits text
  else .region false :: text.toList.map (.char · false true)

/-- What stands between two positional parameters where they are put together. -/
def Env.joint (env : Env) : List Char :=
  match env.value? "IFS" with
  | some separators => separators.toList.take 1
  | none => [' ']

/-- The bits of all positional parameters. -/
def Env.allBits (env : Env) (manner : Manner) (name : String) (quoted : Bool) : List Bit :=
  let apart := manner.full && (!quoted || name = "@")
  let between : List Bit :=
    if apart && (quoted || (env.value? "IFS").isSome) then [.cut]
    else (if apart then [' '] else env.joint).map (.char · quoted (!quoted))
  let each (parameter : String) : List Bit := parameter.toList.map (.char · quoted (!quoted))
  let bits := between.intercalate (env.parameters.map each)
  if !quoted then .region false :: bits
  else if apart && !env.parameters.isEmpty then .region true :: bits
  else bits

/-- The bits of a parameter, nothing if it has no value. -/
def parameterBits (manner : Manner) (name : String) (quoted : Bool) : Sh (Option (List Bit)) := do
  let env ← get
  match env.parameter name with
  | .absent => return none
  | .text text => return some (valueBits quoted text)
  | .all => return some (env.allBits manner name quoted)

/-- The length of what bits stand for. -/
def bitsLength (bits : List Bit) : Nat :=
  bits.countP fun
    | .char .. | .cut => true
    | _ => false

/-- Bits without some at the start or the end; what they came from stays known. -/
def cutBits (chosen : Nat → Bool) (bits : List Bit) : List Bit :=
  (bits.foldl (fun ((kept, index) : List Bit × Nat) bit =>
    match bit with
    | .char .. | .cut => (if chosen index then bit :: kept else kept, index + 1)
    | bit => (bit :: kept, index)) ([], 0)).1.reverse

/-- The characters that patterns are held against; what is between parameters is one too. -/
def bitsChars (bits : List Bit) : List Char :=
  bits.filterMap fun
    | .char c _ _ => some c
    | .cut => some '\x00'
    | _ => none

/-- Bits without what a pattern matches at their start. -/
def trimLeft (pattern : List Bit) (most : Bool) (bits : List Bit) : List Bit :=
  let length := startLength (patternOf (bitsMarked pattern)) most (bitsChars bits)
  cutBits (length ≤ ·) bits

/-- Bits without what a pattern matches at their end. -/
def trimRight (pattern : List Bit) (most : Bool) (bits : List Bit) : List Bit :=
  let length := lengthBefore (patternOf (bitsMarked pattern)) most (bitsChars bits)
  cutBits (· < length) bits

/-- The end because a parameter has no value. -/
def unsetFault {α : Type} (name : String) (message : String := "parameter not set") : Sh α :=
  fail (name ++ ": " ++ message)

/-! ## Words -/

/-- Where in a word its next piece stands. -/
structure Position where
  /-- Whether a tilde there means a home directory. -/
  tilde : Bool := false
  /-- Whether an equals sign makes the rest of the word a value. -/
  assigns : Bool := false
  /-- Whether a colon separates parts of a value. -/
  inValue : Bool := false
  inQuotes : Bool := false
  /-- Whether quotes hold nothing but all parameters, and so do not count. -/
  bare : Bool := false
  /-- Whether the piece before it was a plain character. -/
  afterPlain : Bool := false
  /-- How many pieces have been dealt with already. -/
  skip : Nat := 0
  deriving Inhabited

/-- The user name between a tilde and what ends it; nothing if something is quoted or stands for
something else. -/
def homeName? (inValue : Bool) : List Piece → Option (List Char)
  | [] => some []
  | .char c false :: rest =>
    if c = '/' || (inValue && c = ':') then some []
    else (homeName? inValue rest).map (c :: ·)
  | _ => none

/-- The home directory of a user. -/
def Env.home? (env : Env) (user : List Char) : Option String :=
  if user.isEmpty then env.value? "HOME"
  else if user = "root".toList then some "/root"
  else none

/-- Whether quotes are opened here that hold nothing but all parameters. -/
def holdsAll : List Piece → Bool
  | .parameter "@" .plain [] true :: .quote :: _ => true
  | _ => false

mutual

/-- The bits of the pieces of a word, behind `found`, which has its last bit first. -/
def expandPieces (substitute : Command → Sh String) (manner : Manner) :
    Position → (found : List Bit) → List Piece → Sh (List Bit)
  | _, found, [] => return found.reverse
  | place, found, piece :: rest =>
    match place.skip with
    | skip + 1 => expandPieces substitute manner { place with skip } found rest
    | 0 =>
      let after := { place with tilde := false, afterPlain := false }
      match piece with
      | .quote =>
        if place.bare then
          expandPieces substitute manner { after with bare := false } found rest
        else if !place.inQuotes && holdsAll rest then
          expandPieces substitute manner { after with bare := true } found rest
        else
          expandPieces substitute manner { after with inQuotes := !place.inQuotes }
            (.quote :: found) rest
      | .char c true => expandPieces substitute manner after (.char c true false :: found) rest
      | .char c false =>
        let opens := (c = '=' && place.assigns) || (c = ':' && place.inValue)
        let plain := { after with
          tilde := opens
          assigns := place.assigns && c ≠ '='
          inValue := place.inValue || (c = '=' && place.assigns)
          afterPlain := true }
        let found' := if manner.splits && !place.afterPlain then .region false :: found else found
        let found' := .char c false manner.splits :: found'
        if place.tilde && c = '~' then do
          let env ← get
          match homeName? place.inValue rest with
          | some user =>
            match env.home? user with
            | some home =>
              expandPieces substitute manner { after with skip := user.length }
                ((quotedBits home).reverse ++ found) rest
            | none => expandPieces substitute manner plain found' rest
          | none => expandPieces substitute manner plain found' rest
        else expandPieces substitute manner plain found' rest
      | piece => do
        let bits ← expandPiece substitute manner piece
        expandPieces substitute manner after (bits.reverse ++ found) rest

/-- The bits of what a piece stands for. -/
def expandPiece (substitute : Command → Sh String) (manner : Manner) : Piece → Sh (List Bit)
  | .char c quoted => return [.char c quoted false]
  | .quote => return [.quote]
  | .command body quoted => return valueBits quoted (← substitute body)
  | .arithmetic word quoted => do
    let text := bitsText (← expandPieces substitute { full := false } {} [] word)
    match Arithmetic.evaluate text (← get).value? with
    | .error message => fail message
    | .ok (value, settings) =>
      for (name, value) in settings do
        assign name (some (toString value))
      return valueBits quoted (toString value)
  | .parameter name form word quoted => do
    let bits ← parameterBits manner name quoted
    let isSet (empty : Bool) : Bool := bits.any fun bits => !empty || 0 < bitsLength bits
    let instead : Sh (List Bit) :=
      expandPieces substitute { manner with splits := !quoted } { tilde := true } [] word
    let present : Sh (List Bit) :=
      match bits with
      | some bits => return bits
      | none => do
        if ← isOn 'u' then unsetFault name else return []
    match form with
    | .plain => present
    | .length =>
      let bits ← present
      return valueBits quoted (toString (bitsLength bits))
    | .orElse empty => if isSet empty then present else instead
    | .ifSet empty => if isSet empty then instead else return []
    | .orAssign empty =>
      if isSet empty then present
      else
        let text := bitsText
          (← expandPieces substitute { full := false } { tilde := true } [] word)
        assign name (some text)
        return valueBits quoted text
    | .orFail empty =>
      if isSet empty then present
      else if word.isEmpty then
        unsetFault name (if empty then "parameter not set or null" else "parameter not set")
      else
        let text := bitsText
          (← expandPieces substitute { full := false } { tilde := true } [] word)
        unsetFault name text
    | .trimLeft most =>
      let bits ← present
      if !isSet false then return bits
      let pattern ← expandPieces substitute { full := false } { tilde := true } [] word
      return trimLeft pattern most bits
    | .trimRight most =>
      let bits ← present
      if !isSet false then return bits
      let pattern ← expandPieces substitute { full := false } { tilde := true } [] word
      return trimRight pattern most bits
    | .wrong => fail "Bad substitution"

end

section

variable (substitute : Command → Sh String)

/-- The fields that a word of a command becomes. -/
def expandFields (word : Word) : Sh (List String) := do
  let bits ← expandPieces substitute { full := true } { tilde := true } [] word
  let fields := splitFields (← get).separators none bits
  let mut texts := #[]
  for field in fields do
    texts := texts ++ (← matchingPaths (bitsMarked field))
  return texts.toList

/-- The fields that the words of a command become. -/
def expandWords : List Word → Sh (List String)
  | [] => return []
  | word :: rest => return (← expandFields substitute word) ++ (← expandWords rest)

/-- The one text that a word becomes. -/
def expandText (word : Word) : Sh String :=
  return bitsText (← expandPieces substitute { full := false } { tilde := true } [] word)

/-- The one text that a setting becomes: its name, an equals sign and its value. -/
def expandSetting (word : Word) : Sh String :=
  return bitsText (← expandPieces substitute { full := false } { assigns := true } [] word)

/-- The text of a document. -/
def expandDocument (word : Word) : Sh String :=
  return bitsText (← expandPieces substitute { full := false } {} [] word)

/-- The pattern that a word becomes. -/
def expandPattern (word : Word) : Sh (List PatternPart) :=
  return patternOf
    (bitsMarked (← expandPieces substitute { full := false } { tilde := true } [] word))

end

end TinyShell.Machine.Sh
