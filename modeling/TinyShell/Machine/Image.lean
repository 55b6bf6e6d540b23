import TinyShell.Machine.Perform

/-!
# Images

How a machine finds the program of a name: a tool of its own, or a script, which names the program
that reads it in its first line.
-/

namespace TinyShell.Machine

open Text (Bytes)

/-- A program that can be run: a tool with its words. -/
structure Image where
  tool : String
  argv : List String
  deriving Repr, Inhabited

/-- Bytes of a script's first line that are looked at. -/
def maxFirstLine : Nat := 255

def isSpaceOrTab (c : Char) : Bool := c = ' ' || c = '\t'

/-- The program in the first line of a script and its one argument; nothing if the line names
none, or if it is too long for the name. -/
def interpreter? (content : ByteArray) : Option (String × List String) :=
  match (content.extract 0 maxFirstLine).toList with
  | 35 :: 33 :: rest =>
    let bytes := rest.takeWhile fun byte => byte ≠ 10 && byte ≠ 0
    let line := (Text.decode bytes).toList
    let line := ((line.dropWhile isSpaceOrTab).reverse.dropWhile isSpaceOrTab).reverse
    let program := line.takeWhile (!isSpaceOrTab ·)
    let argument := (line.drop program.length).dropWhile isSpaceOrTab
    let cut := bytes.length = rest.length && maxFirstLine < content.size
    if program.isEmpty || (cut && program.length = line.length) then none
    else
      some (String.ofList program,
        if argument.isEmpty then [] else [String.ofList argument])
  | _ => none

/-- How many programs can be gone through, each named by the script before it. -/
def maxInterpreters : Nat := 6

/-- The program at a path. `depth` bounds the scripts that are gone through. -/
def imageAt (machine : Machine) (directory : Path) :
    (depth : Nat) → (path : String) → (argv : List String) → Except Errno Image
  | 0, _, _ => .error .eloop
  | depth + 1, path, argv => do
    let place ← machine.files.resolve directory path
    match machine.files.lookup place with
    | none => .error .enoent
    | some (.tool name) => .ok ⟨name, argv⟩
    | some (.file content true) =>
      if machine.isWritten place then
        .error .etxtbsy
      else
        match interpreter? content with
        | some (program, argument) =>
          imageAt machine directory depth program (program :: argument ++ path :: argv.drop 1)
        | none => .error .enoexec
    | some _ => .error .eacces

/-- The program at a path; a file that may be run and is no program is a script for `sh`. -/
def imageOrScript (machine : Machine) (directory : Path) (path : String) (argv : List String) :
    Except Errno Image :=
  match imageAt machine directory maxInterpreters path argv with
  | .error .enoexec =>
    imageAt machine directory maxInterpreters "/bin/sh" ("/bin/sh" :: path :: argv.drop 1)
  | result => result

/-- The directories in which programs are looked for if nothing else is said. -/
def searchPath : List String := ["/usr/bin", "/bin"]

/-- The program of a name in the first of the directories that has it. That one may not be run is
only said if no other is found. -/
def imageIn (machine : Machine) (directory : Path) (name : String) (argv : List String)
    (missing : Errno) : List String → Except Errno Image
  | [] => .error missing
  | place :: rest =>
    match imageOrScript machine directory (place ++ "/" ++ name) argv with
    | .error .eacces => imageIn machine directory name argv .eacces rest
    | .error .enoent | .error .enotdir => imageIn machine directory name argv missing rest
    | result => result

/-- The program of a name. A name with a slash is a path. -/
def imageNamed (machine : Machine) (directory : Path) (name : String) (argv : List String) :
    Except Errno Image :=
  if name.isEmpty then .error .enoent
  else if name.contains '/' then imageOrScript machine directory name argv
  else if maxNameLength < name.utf8ByteSize then .error .enametoolong
  else imageIn machine directory name argv .enoent searchPath

/-- The place of the first NUL in a text, with the text's bytes. -/
def nulIn? (text : String) : Option (Nat × Bytes) :=
  let bytes := Text.encode text
  (bytes.findIdx? (· = 0)).map fun place => (place, bytes)

/-- The line of the journal about a word with a NUL, which cannot be handed to a program. -/
def nulNote? (program : String) (argv : List String) : Option String :=
  ((program :: argv).findSome? nulIn?).map fun (place, bytes) =>
    "exec " ++ program ++ ": BadArgument(NulError(" ++ toString place ++ ", [" ++
      ", ".intercalate (bytes.map fun byte => toString byte.toNat) ++ "]))"

end TinyShell.Machine
