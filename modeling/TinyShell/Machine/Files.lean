import TinyShell.Errno
import TinyShell.Handle

/-!
# Files

A tree of files as a table from paths to what is there. Nothing is ever removed or renamed, so a
path stands for the same file for as long as a process has it open.
-/

namespace TinyShell.Machine

/-- The names from the root to a file. -/
abbrev Path := List String

/-- Files that hold nothing of their own: what they give and what they take is always the same. -/
inductive Device where
  /-- Empty, and takes everything. -/
  | null
  /-- All zeros, and takes everything. -/
  | zero
  /-- All zeros, and takes nothing. -/
  | full
  /-- The terminal, which there is none of. -/
  | terminal
  deriving DecidableEq, Repr, Inhabited

/-- What can be at a path. -/
inductive Node where
  | directory
  | file (content : ByteArray) (executable : Bool)
  | device (device : Device)
  /-- Another path. -/
  | link (target : String)
  /-- What the process itself has open under a number. -/
  | handle (fd : Descriptor)
  /-- A program that the machine knows by itself. -/
  | tool (name : String)
  deriving Inhabited

def Node.isDirectory : Node → Bool
  | directory => true
  | _ => false

/-- The files of a machine. The root directory is always there. -/
structure Files where
  nodes : List (Path × Node)
  /-- When something was changed last, in microseconds from the start of the machine. -/
  times : List (Path × Int) := []
  deriving Inhabited

/-- Bytes of the longest name and of the longest path. -/
def maxNameLength : Nat := 255

def maxPathLength : Nat := 4095

/-- How many links are followed on the way along one path. -/
def maxLinks : Nat := 40

namespace Files

/-- What is at a path. -/
def lookup (files : Files) (path : Path) : Option Node :=
  if path.isEmpty then some .directory else files.nodes.lookup path

/-- The files with something new or changed at a path. -/
def insert (files : Files) (path : Path) (node : Node) : Files :=
  if (files.nodes.lookup path).isSome then
    { files with
      nodes := files.nodes.map fun (other, old) => (other, if other = path then node else old) }
  else
    { files with nodes := files.nodes ++ [(path, node)] }

/-- The files with a directory at a path and at all paths above it. -/
def insertDirectories (files : Files) (path : Path) : Files :=
  (List.range (path.length + 1)).foldl (fun files count =>
    if (files.lookup (path.take count)).isSome then files
    else files.insert (path.take count) .directory) files

def isDirectory (files : Files) (path : Path) : Bool :=
  (files.lookup path).any Node.isDirectory

/-- The content of a file; nothing for what is no file. -/
def content (files : Files) (path : Path) : ByteArray :=
  match files.lookup path with
  | some (.file content _) => content
  | _ => .empty

/-- The file at a path with its content changed. -/
def modifyContent (files : Files) (path : Path) (change : ByteArray → ByteArray) : Files :=
  { files with
    nodes := files.nodes.map fun (other, node) =>
      match node with
      | .file content executable =>
        (other, .file (if other = path then change content else content) executable)
      | node => (other, node) }

/-- The files when something has just been changed. -/
def stamp (files : Files) (path : Path) (time : Int) : Files :=
  { files with times := (path, time) :: files.times.filter (·.1 ≠ path) }

/-- When something was changed; what has no time is older than all that has one. -/
def time (files : Files) (path : Path) : Int := (files.times.lookup path).getD (-1000000)

/-- The names in a directory, in the order of their bytes. -/
def names (files : Files) (path : Path) : List String :=
  let below := files.nodes.filterMap fun (other, _) =>
    if other.dropLast = path then other.getLast? else none
  below.mergeSort fun a b => a ≤ b

/-- All that is below a directory, by the names that lead there. -/
def below (files : Files) (path : Path) : List (Path × Node) :=
  files.nodes.filterMap fun (other, node) =>
    if path.isPrefixOf other ∧ path ≠ other then some (other.drop path.length, node) else none

/-! ## Finding a file -/

/-- The names of a path as it is written. A slash at the end leaves an empty name there. -/
def split (path : String) : List String := path.splitOn "/"

/-- Where a path starts. -/
def origin (directory : Path) (path : String) : Path :=
  if path.startsWith "/" then [] else directory

/-- Where names lead from a directory. All but the last must lead to directories, and links on the
way are followed; one at the end is followed unless `keep` says so. -/
def walk (files : Files) (keep : Bool) :
    (links : Nat) → (place : Path) → List String → Except Errno Path
  | _, place, [] => .ok place
  | links, place, name :: rest =>
    if !files.isDirectory place then .error .enotdir
    else if name = "" ∨ name = "." then walk files keep links place rest
    else if name = ".." then walk files keep links place.dropLast rest
    else if maxNameLength < name.utf8ByteSize then .error .enametoolong
    else
      match files.lookup (place ++ [name]) with
      | none => .error .enoent
      | some (.link target) =>
        if keep && rest.isEmpty then .ok (place ++ [name])
        else
          match links with
          | 0 => .error .eloop
          | links + 1 => walk files keep links (origin place target) (split target ++ rest)
      | some _ => walk files keep links (place ++ [name]) rest
termination_by links _ names => (links, names.length)

/-- The reason why a path as it is written cannot lead anywhere. -/
def malformed? (path : String) : Option Errno :=
  if path.isEmpty then some .enoent
  else if path.contains '\x00' then some .einval
  else if maxPathLength < path.utf8ByteSize then some .enametoolong
  else none

/-- Where a path leads; one that ends in a link leads to the link itself if `keep` says so. -/
def resolve (files : Files) (directory : Path) (path : String) (keep : Bool := false) :
    Except Errno Path :=
  match malformed? path with
  | some errno => .error errno
  | none => files.walk keep maxLinks (origin directory path) (split path)

/-- Where a path leads or would lead if its last name were there. -/
def resolveNew (files : Files) (directory : Path) (path : String) : Except Errno Path :=
  match malformed? path with
  | some errno => .error errno
  | none => do
    let names := split path
    let named := (names.reverse.dropWhile (· = "")).reverse
    match named.getLast? with
    | none => .error .eisdir
    | some name =>
      let parent ← files.walk false maxLinks (origin directory path) named.dropLast
      if !files.isDirectory parent then .error .enotdir
      else if named.length < names.length ∨ name = "." ∨ name = ".." then .error .eisdir
      else if maxNameLength < name.utf8ByteSize then .error .enametoolong
      else
        match files.lookup (parent ++ [name]) with
        | some (.link target) => files.walk false maxLinks (origin parent target) (split target)
        | _ => .ok (parent ++ [name])

end Files

end TinyShell.Machine
