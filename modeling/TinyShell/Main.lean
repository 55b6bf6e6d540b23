import TinyShell.CommandLine

/-!
# The program

The shell on a machine of its own: standard input and the command line come from outside, and so
do the streams that its output is shown on.
-/

namespace TinyShell

/-- All bytes of a stream. -/
partial def readToEnd (stream : IO.FS.Stream) (acc : ByteArray) : IO ByteArray := do
  let chunk ← stream.read 65536
  if chunk.isEmpty then return acc else readToEnd stream (acc ++ chunk)

/-- Bytes on a stream. -/
def emit (stream : IO.FS.Stream) (bytes : Text.Bytes) : IO Unit := do
  stream.write ⟨bytes.toArray⟩
  stream.flush

end TinyShell

open TinyShell in
def main (args : List String) : IO UInt32 := do
  match Invocation.parse args with
  | none =>
    IO.eprintln "usage: tsh [-c LINE]"
    return 2
  | some invocation =>
    let input ← if invocation = .interactive then readToEnd (← IO.getStdin) .empty else pure .empty
    match invocation.run (.bytes input.toList) .shown none with
    | none => return 1
    | some (code, machine) =>
      emit (← IO.getStdout) (machine.channelBytes Machine.outputChannel)
      emit (← IO.getStderr) (machine.channelBytes Machine.errorChannel)
      return UInt32.ofNat code
