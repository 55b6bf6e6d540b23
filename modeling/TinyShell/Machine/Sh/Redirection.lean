import TinyShell.Machine.Sh.Expand

/-!
# Redirections

Descriptors that stand for something else while a command runs, or from then on.
-/

namespace TinyShell.Machine.Sh

/-- A redirection whose word has been expanded. -/
structure Redirection where
  fd : Descriptor
  kind : RedirectKind
  text : String
  document : Word := []
  deriving Inhabited

namespace Redirection

def isCopy (redirection : Redirection) : Bool :=
  match redirection.kind with
  | .copyIn | .copyOut => true
  | _ => false

/-- The redirections of a command, ready to be made. -/
def prepare (substitute : Command → Sh String) : List Redirect → Sh (List Redirection)
  | [] => return []
  | .mk fd kind word :: rest => do
    let text ← expandText substitute word
    let env ← get
    let document := match kind with
      | .document index => (env.documents.lookup index).getD []
      | _ => []
    let first : Redirection := { fd := Int32.ofNat fd, kind, text, document }
    if first.isCopy && text ≠ "-" && !(text.length = 1 && text.toList.all Char.isDigit) then
      modify fun env => { env with line := env.lastLine }
      fail "Syntax error: Bad fd number"
    return first :: (← prepare substitute rest)

end Redirection

/-- What a redirection has opened. -/
inductive Opened where
  /-- The descriptor stands for that already. -/
  | same
  /-- The descriptor is to be closed. -/
  | nothing
  | fd (fd : Descriptor)
  deriving DecidableEq, Repr, Inhabited

/-- A file opened, or the reason why it cannot be. -/
def openFile (path : String) (flags : OpenFlags) : Sh Descriptor := do
  match ← request (.openFile (toText path) flags) with
  | .ok fd => return fd
  | .error errno =>
    let (verb, seeking) := if flags.create then ("create", Seeking.directory)
      else ("open", Seeking.file)
    fail ("cannot " ++ verb ++ " " ++ path ++ ": " ++ reason seeking errno)

/-- A file opened to be written without harm to a regular file that is there. -/
def openSparing (path : String) : Sh Descriptor := do
  match ← inspect path with
  | .error _ => openFile path { access := .writeOnly, create := true }
  | .ok status =>
    if status.kind = .regular then
      fail ("cannot create " ++ path ++ ": File exists")
    else openFile path { access := .writeOnly }

/-- The size of the largest document that no process is needed for. -/
def maxDocument : Nat := 4096

/-- A pipe that a text can be read from. It is there before the text is made, and stays open if that
fails. -/
def openText (text : Sh String) : Sh Descriptor := do
  match ← request .pipe with
  | .error _ => fail "Pipe call failed"
  | .ok ends =>
    let bytes := toBytes (← text)
    if bytes.length ≤ maxDocument then
      let _ ← lift (Program.writeAll ends.writeEnd bytes)
    else
      let child : Program Status := do
        Program.close ends.readEnd
        let _ ← Program.writeAll ends.writeEnd bytes
        return 0
      let _ ← lift (Program.fork child)
    let _ ← request (.close ends.writeEnd)
    return ends.readEnd

/-- What a redirection is to, opened. -/
def openTarget (substitute : Command → Sh String) (redirection : Redirection) : Sh Opened := do
  let path := redirection.text
  match redirection.kind with
  | .read => return .fd (← openFile path { access := .readOnly })
  | .readWrite => return .fd (← openFile path { access := .readWrite, create := true })
  | .write =>
    if ← isOn 'C' then return .fd (← openSparing path)
    else return .fd (← openFile path { access := .writeOnly, create := true, truncate := true })
  | .clobber =>
    return .fd (← openFile path { access := .writeOnly, create := true, truncate := true })
  | .append => return .fd (← openFile path { access := .writeOnly, create := true, append := true })
  | .copyIn | .copyOut =>
    if path = "-" then return .nothing
    let fd := Int32.ofNat (Tool.digitsValue path.toList)
    return if fd = redirection.fd then .same else .fd fd
  | .document _ => return .fd (← openText (expandDocument substitute redirection.document))

def closeFd (fd : Descriptor) : Sh Unit := do
  let _ ← request (.close fd)

/-- The lowest descriptor that things are put aside under. -/
def lowestAside : Descriptor := 10

/-- A descriptor put aside, and closed under its own number. -/
def putAside (fd : Descriptor) : Sh Former := do
  match ← call (.putAside fd lowestAside) with
  | .ok copy =>
    closeFd fd
    return .aside copy
  | .error _ => return .closed

/-- A descriptor made to stand for what was opened. -/
def connect (redirection : Redirection) (opened : Opened) : Sh Unit := do
  match opened with
  | .same => return ()
  | .nothing => closeFd redirection.fd
  | .fd fd =>
    let result ← request (.duplicate fd redirection.fd)
    if redirection.isCopy then
      if let .error errno := result then
        fail (toString fd ++ ": " ++ errorText errno)
    else closeFd fd

/-- Redirections made, one after another. What the descriptors were before is kept if it is to
come back. -/
def redirect (substitute : Command → Sh String) (keeps : Bool) : List Redirection → Sh Unit
  | [] => return ()
  | redirection :: rest => do
    let opened ← openTarget substitute redirection
    let isPlace := opened = .fd redirection.fd
    unless opened = .same do
      let known := match (← get).redirects with
        | top :: _ => (top.lookup redirection.fd).isSome
        | [] => true
      if keeps && !known then
        let former ← if isPlace then pure .closed else putAside redirection.fd
        let recorded := if former = .closed && opened = .nothing then .gone else former
        modify fun env =>
          match env.redirects with
          | top :: others =>
            { env with redirects := ((redirection.fd, recorded) :: top) :: others }
          | [] => env
        unless isPlace || opened = .nothing do
          connect redirection opened
      else
        unless isPlace do
          connect redirection opened
    redirect substitute keeps rest

/-- A new level of redirections. -/
def pushRedirects : Sh Unit :=
  modify fun env => { env with redirects := [] :: env.redirects }

/-- The innermost redirections are over. They last if `last` says so. -/
def popRedirects (last : Bool) : Sh Unit := do
  match (← get).redirects with
  | [] => return ()
  | top :: others =>
    modify fun env => { env with redirects := others }
    for (fd, former) in top do
      match former with
      | .gone => pure ()
      | .closed =>
        unless last do
          closeFd fd
      | .aside copy =>
        unless last do
          let _ ← request (.duplicate copy fd)
        closeFd copy

/-- The redirections beyond so many levels are over. `count` bounds their number. -/
def unwindRedirects (depth : Nat) : (count : Nat) → Sh Unit
  | 0 => return ()
  | count + 1 => do
    if depth < (← get).redirects.length then
      popRedirects false
      unwindRedirects depth count

/-- Redirections made so that they can be taken back; whether they could be made. -/
def redirectSafely (substitute : Command → Sh String) (redirections : List Redirection) :
    Sh Bool := do
  match ← attempt (redirect substitute true redirections) with
  | .ok () => return true
  | .error .fault => return false
  | .error leave => throw leave

end TinyShell.Machine.Sh
