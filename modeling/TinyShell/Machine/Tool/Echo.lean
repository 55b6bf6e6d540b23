import TinyShell.Machine.Number
import TinyShell.Machine.Tool.Options

/-!
# echo

Words on a line, with escapes on demand.
-/

namespace TinyShell.Machine.Tool

open Text (Bytes)

/-- The number that at most `count` digits write, with the number of digits used. -/
def digits (base count : Nat) (chars : List Char) : Nat × Nat :=
  let used := (chars.take count).takeWhile (Number.isDigitOf base)
  (Number.ofDigits base used, used.length)

/-- The byte that a letter after a backslash stands for. -/
def escaped? : Char → Option UInt8
  | 'a' => some 7
  | 'b' => some 8
  | 'e' => some 27
  | 'f' => some 12
  | 'n' => some 10
  | 'r' => some 13
  | 't' => some 9
  | 'v' => some 11
  | '\\' => some 92
  | _ => none

/-- Text with its escapes read, and whether it ended by `\c`. `count` bounds the steps. -/
def unescape : (count : Nat) → List Char → Bytes × Bool
  | 0, _ => ([], false)
  | _, [] => ([], false)
  | count + 1, '\\' :: c :: rest =>
    let after (bytes : Bytes) (rest : List Char) : Bytes × Bool :=
      let (more, ended) := unescape count rest
      (bytes ++ more, ended)
    match c with
    | 'c' => ([], true)
    | '0' =>
      let (value, used) := digits 8 3 rest
      after [UInt8.ofNat value] (rest.drop used)
    | 'x' =>
      let (value, used) := digits 16 2 rest
      if used = 0 then after (Text.encode "\\x") rest
      else after [UInt8.ofNat value] (rest.drop used)
    | c =>
      let (value, used) := digits 8 3 (c :: rest)
      if used > 0 then after [UInt8.ofNat value] ((c :: rest).drop used)
      else
        match escaped? c with
        | some byte => after [byte] rest
        | none => after (Text.encode (String.ofList ['\\', c])) rest
  | count + 1, c :: rest =>
    let (more, ended) := unescape count rest
    (String.utf8EncodeChar c ++ more, ended)

/-- The options that `echo` starts with: words of the letters `n`, `e` and `E`. -/
def echoOptions : List String → List Char × List String
  | [] => ([], [])
  | word :: rest =>
    match word.toList with
    | '-' :: letter :: letters =>
      if (letter :: letters).all (['n', 'e', 'E'].contains ·) then
        let (options, words) := echoOptions rest
        (letter :: letters ++ options, words)
      else ([], word :: rest)
    | _ => ([], word :: rest)

def echo (args : List String) : Tool Status := do
  let (options, words) := echoOptions args
  let text := " ".intercalate words
  let escapes := (options.filter (· ≠ 'n')).getLast? = some 'e'
  let (bytes, ended) :=
    if escapes then unescape text.length text.toList else (Text.encode text, false)
  emit bytes
  unless ended || options.contains 'n' do
    emit [10]
  return 0

end TinyShell.Machine.Tool
