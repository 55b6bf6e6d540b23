import TinyShell.Action.Basic
import TinyShell.Limits

/-!
# Lines in and out

A line is read byte by byte, so that nothing behind its newline is taken away from the programs
that share the input. A text is written until the system has taken all of it.
-/

namespace TinyShell

open Text (Bytes)

/-- Room for one line and a zero after it. -/
structure LineBuffer where
  bytes : Vector UInt8 (maxLineLength + 1)
  length : Nat
  length_le : length ≤ maxLineLength

namespace LineBuffer

/-- All zeros. -/
def empty : LineBuffer := ⟨.replicate _ 0, 0, Nat.zero_le _⟩

instance : Inhabited LineBuffer := ⟨empty⟩

/-- Nothing is kept of what was there. -/
def clear (_buffer : LineBuffer) : LineBuffer := empty

def isEmpty (buffer : LineBuffer) : Bool := buffer.length = 0

/-- The bytes of the line. -/
def stored (buffer : LineBuffer) : Bytes := buffer.bytes.toList.take buffer.length

/-- The line as text. -/
def text (buffer : LineBuffer) : String := Text.decode buffer.stored

/-- One more byte, if there is room. -/
def push (buffer : LineBuffer) (byte : UInt8) : LineBuffer :=
  if room : buffer.length < maxLineLength then
    ⟨buffer.bytes.set buffer.length byte (Nat.lt_succ_of_lt room), buffer.length + 1, room⟩
  else
    buffer

end LineBuffer

/-- The outcome of reading a line. -/
inductive LineStatus where
  /-- A line of so many bytes. -/
  | line (length : Nat)
  | endOfInput
  | failed (errno : Errno)
  deriving DecidableEq, Repr, Inhabited

namespace LineBuffer

/-- The outcome once no newline can follow: what was read is a line, if anything was. -/
def ended (buffer : LineBuffer) : LineStatus :=
  if buffer.isEmpty then .endOfInput else .line buffer.length

/-- One byte of a line. A call that was interrupted is made again; an error before the first byte
fails the line, and a later one ends it. -/
def readByte (fd : Descriptor) (buffer : LineBuffer) :
    Action (LineBuffer ⊕ (LineStatus × LineBuffer)) := do
  if maxLineLength ≤ buffer.length then
    return .inr (buffer.ended, buffer)
  match ← Action.call (.read fd 1) with
  | .ok [] => return .inr (buffer.ended, buffer)
  | .ok (byte :: _) =>
    if byte = 10 then
      return .inr (.line buffer.length, buffer)
    else
      return .inl (buffer.push byte)
  | .error .eintr => return .inl buffer
  | .error errno =>
    return .inr (if buffer.isEmpty then .failed errno else .line buffer.length, buffer)

/-- A line in place of the last one: up to a newline, which is dropped, the end of input, or
`maxLineLength` bytes. What lies beyond stays unread. -/
def read (buffer : LineBuffer) (fd : Descriptor) : Action (LineStatus × LineBuffer) :=
  Action.iterate (readByte fd) buffer.clear

end LineBuffer

/-- One call for the bytes that are left. One that takes none of them is an error, and one that was
interrupted is made again. -/
def writeSome (fd : Descriptor) (bytes : Bytes) : Action (Bytes ⊕ Except Errno Unit) := do
  if bytes.isEmpty then
    return .inr (.ok ())
  match ← Action.call (.write fd bytes) with
  | .ok 0 => return .inr (.error .eio)
  | .ok taken => return .inl (bytes.drop taken)
  | .error .eintr => return .inl bytes
  | .error errno => return .inr (.error errno)

/-- The whole text, in as many calls as it takes. -/
def writeText (fd : Descriptor) (text : String) : Action (Except Errno Unit) :=
  Action.iterate (writeSome fd) (Text.encode text)

/-- A text to standard output; that it could not be written is only noted. -/
def display (label : String) (text : String) : Action Unit := do
  match ← writeText .output text with
  | .ok () => return ()
  | .error errno => Action.log (label ++ ": " ++ errno.text)

end TinyShell
