import TinyShell.Machine.Tool.Listing
import TinyShell.Machine.Tool.Options
import TinyShell.Machine.Tool.Size

/-!
# ls

The names in directories.
-/

namespace TinyShell.Machine.Tool

/-! ## Options -/

def lsGrammar : Grammar where
  plain := "abcdfghiklmnopqrstuvxABCDFGHLNQRSUXZ1"
  valued := "wIT"
  names := [("all", "a", .nothing), ("escape", "b", .nothing), ("directory", "d", .nothing),
    ("dired", "D", .nothing), ("full-time", "full-time", .nothing),
    ("group-directories-first", "group-directories-first", .nothing),
    ("human-readable", "h", .nothing), ("inode", "i", .nothing), ("kibibytes", "k", .nothing),
    ("numeric-uid-gid", "n", .nothing), ("no-group", "G", .nothing),
    ("hide-control-chars", "q", .nothing), ("reverse", "r", .nothing), ("size", "s", .nothing),
    ("width", "w", .value), ("almost-all", "A", .nothing), ("ignore-backups", "B", .nothing),
    ("classify", "classify", .optional "always"), ("file-type", "file-type", .nothing),
    ("si", "si", .nothing), ("dereference-command-line", "H", .nothing),
    ("dereference-command-line-symlink-to-dir", "to-directories", .nothing),
    ("hide", "hide", .value), ("ignore", "I", .value),
    ("indicator-style", "indicator-style", .value), ("dereference", "L", .nothing),
    ("literal", "N", .nothing), ("quote-name", "Q", .nothing),
    ("quoting-style", "quoting-style", .value), ("recursive", "R", .nothing),
    ("format", "format", .value), ("show-control-chars", "show-control-chars", .nothing),
    ("sort", "sort", .value), ("tabsize", "T", .value), ("time", "time", .value),
    ("time-style", "time-style", .value), ("zero", "zero", .nothing),
    ("color", "color", .optional "always"), ("hyperlink", "hyperlink", .optional "always"),
    ("block-size", "block-size", .value), ("context", "Z", .nothing),
    ("author", "author", .nothing)]

/-- Words for the options that they are other names of. -/
abbrev Synonyms := List (List String × String)

def orderWords : Synonyms :=
  [(["none"], "U"), (["time"], "t"), (["size"], "S"), (["extension"], "X"), (["version"], "v"),
    (["width"], "by-width")]

def spreadWords : Synonyms :=
  [(["verbose", "long"], "l"), (["commas"], "m"), (["horizontal", "across"], "x"),
    (["vertical"], "C"), (["single-column"], "single-column")]

def markWords : Synonyms :=
  [(["none"], "unmarked"), (["slash"], "p"), (["file-type"], "file-type"), (["classify"], "F")]

def timeWords : Synonyms :=
  [(["atime", "access", "use"], "u"), (["ctime", "status"], "c"),
    (["mtime", "modification"], "timed"), (["birth", "creation"], "timed")]

/-- Words for when something is done; output never goes to a terminal. -/
def whenWords (option : String) : Synonyms :=
  [(["always", "yes", "force"], option), (["never", "no", "none"], "never"),
    (["auto", "tty", "if-tty"], "never")]

/-- A number in any base. -/
def anyNumber : SizeFormat where
  anyBase := true

/-- The width of lines that a text asks for; a very large one is as good as none. -/
def lineWidth? (text : String) : Option Nat :=
  match anyNumber.parse text with
  | .ok width => some (if width ≤ maxFileSize then width else 0)
  | .error .large => some 0
  | .error _ => none

/-- What is wrong with a size of blocks. -/
def blockSizeError? (text : String) : Option SizeError :=
  let text := if text.startsWith "'" then (text.drop 1).toString else text
  let units : SizeFormat := { letters := "eEgGkKmMpPQRtTyYZ", units := true, anyBase := true }
  if !text.isEmpty && ["human-readable", "si"].any (·.startsWith text) then none
  else
    match units.parse text with
    | .ok size => if size = 0 then some .noNumber else none
    | .error error => some error

/-- An option by its letter if it has one, with a value that is known to be right. -/
def settleLs (option value : String) : Tool (String × String) := do
  match option with
  | "sort" => return (← choose option value orderWords, "")
  | "format" => return (← choose option value spreadWords, "")
  | "indicator-style" => return (← choose option value markWords, "")
  | "time" => return (← choose option value timeWords, "")
  | "classify" => return (← choose option value (whenWords "F"), "")
  | "color" | "hyperlink" => return (← choose option value (whenWords option), "")
  | "quoting-style" =>
    return (option, ← choose option value (NameStyle.words.map fun (word, _) => ([word], word)))
  | "w" =>
    match lineWidth? value with
    | some width => return (option, toString width)
    | none => die ("invalid line width: " ++ Text.quotedWord value) 2
  | "T" =>
    match anyNumber.parse value with
    | .ok width =>
      if width ≤ maxFileSize then return (option, toString width)
      else die (SizeError.large.message "tab size" value) 2
    | .error error => die (error.message "tab size" value) 2
  | "block-size" =>
    match blockSizeError? value with
    | none => return (option, value)
    | some error => die (error.optionMessage "--block-size" value) 2
  | _ => return (option, value)

namespace Listing

def withSpread (listing : Listing) (spread : Spread) : Listing :=
  { listing with long := false, page := { listing.page with spread } }

/-- What one option asks for, after others. -/
def withOption (listing : Listing) (option value : String) : Listing :=
  match option with
  | "l" | "g" | "n" | "o" | "full-time" => { listing.withSpread .lines with long := true }
  | "1" => if listing.long then listing else listing.withSpread .lines
  | "single-column" => listing.withSpread .lines
  | "C" => listing.withSpread .down
  | "x" => listing.withSpread .across
  | "m" => listing.withSpread .commas
  | "a" => { listing with dotted := true, doubleDotted := true }
  | "f" =>
    { listing with dotted := true, doubleDotted := true, sized := false, order := some .none }
  | "A" => { listing with dotted := true, doubleDotted := false }
  | "B" => { listing with ignored := "*~" :: ".*~" :: listing.ignored }
  | "I" => { listing with ignored := value :: listing.ignored }
  | "hide" => { listing with hidden := value :: listing.hidden }
  | "d" => { listing with itself := true }
  | "R" => { listing with recursive := true }
  | "unmarked" => { listing with marks := .none }
  | "p" => { listing with marks := .directories }
  | "file-type" => { listing with marks := .kinds }
  | "F" => { listing with marks := .all }
  | "H" => { listing with follow := some .operands }
  | "to-directories" => { listing with follow := some .directories }
  | "L" => { listing with follow := some .always }
  | "b" => { listing with style := some .escape }
  | "N" => { listing with style := some .literal }
  | "Q" => { listing with style := some .c }
  | "quoting-style" => { listing with style := NameStyle.words.lookup value }
  | "q" => { listing with masks := true }
  | "show-control-chars" => { listing with masks := false }
  | "r" => { listing with reverse := true }
  | "U" => { listing with order := some .none }
  | "S" => { listing with order := some .size }
  | "t" => { listing with order := some .time }
  | "X" => { listing with order := some .suffix }
  | "v" => { listing with order := some .version }
  | "by-width" => { listing with order := some .width }
  | "c" | "u" | "timed" => { listing with timed := true }
  | "group-directories-first" => { listing with directoriesFirst := true }
  | "s" => { listing with sized := true }
  | "Z" => { listing with context := true }
  | "zero" =>
    { listing with
      masks := false
      style := some .literal
      page := { listing.page with spread := .lines, newline := "\x00" } }
  | "T" => { listing with page := { listing.page with tabs := digitsValue value.toList } }
  | "w" => { listing with page := { listing.page with columns := digitsValue value.toList } }
  | _ => listing

end Listing

/-- The listing with what the environment says where the options say nothing. -/
def Listing.withEnvironment (arguments : Arguments) (listing : Listing) : Tool Listing := do
  let environment ← call .environment
  let warn (what name value : String) : Tool Unit :=
    complain ("ignoring invalid " ++ what ++ " environment variable " ++ name ++ ": " ++
      Text.quotedWord value)
  let mut page := listing.page
  if page.spread ≠ .lines then
    let width := (environment.lookup "COLUMNS").getD ""
    if !arguments.has "w" && !width.isEmpty then
      match lineWidth? width with
      | some columns => page := { page with columns }
      | none => warn "width in" "COLUMNS" width
    if !arguments.has "T" then
      if let some size := environment.lookup "TABSIZE" then
        match anyNumber.parse size with
        | .ok tabs => page := { page with tabs }
        | .error _ => warn "tab size in" "TABSIZE" size
  let mut style := listing.style
  if style.isNone then
    if let some word := environment.lookup "QUOTING_STYLE" then
      style := NameStyle.words.lookup word
      if style.isNone then
        warn "value of" "QUOTING_STYLE" word
  return { listing with page, style }

/-! ## Files -/

/-- What is at a path, or at the end of the links there. -/
def statusAt (path : String) (keep : Bool) : Tool (Except Errno FileStatus) := do
  match ← call (.inspect path keep) with
  | .ok status => return .ok status
  | .error errno => return .error errno

/-- What an operand is. -/
def operandStatus (follow : Follow) (operand : String) : Tool (Except Errno FileStatus) := do
  match follow with
  | .never => statusAt operand true
  | .operands | .always => statusAt operand false
  | .directories =>
    match ← statusAt operand false with
    | .ok status => if status.kind = .directory then return .ok status else statusAt operand true
    | .error .enoent | .error .eloop => statusAt operand true
    | .error errno => return .error errno

/-- The names in a directory that are shown. -/
def entriesOf (listing : Listing) (path : String) : Tool (Except Errno (List Listed)) := do
  match ← call (.list path) with
  | .error errno => return .error errno
  | .ok names =>
    let names := (if listing.doubleDotted then [".", ".."] else []) ++ names
    let entries ← (names.filter listing.admits).mapM fun name => do
      match ← statusAt (path ++ "/" ++ name) (listing.following ≠ .always) with
      | .ok status => return ⟨name, status⟩
      | .error _ =>
        -- The handle of the directory itself is there only while the directory is read.
        let handle : FileStatus := { kind := .link, size := 64, executable := true, identity := [] }
        return ⟨name, handle⟩
    return .ok (listing.arrange entries)

/-- A path to a name in a directory. -/
def pathWithin (directory name : String) : String :=
  let bare := String.ofList ((directory.toList.reverse.dropWhile (· = '/')).reverse)
  if bare.isEmpty && !directory.isEmpty then directory ++ name else bare ++ "/" ++ name

/-- Directories still to be shown, with what is known of those before them. -/
structure Shelf where
  rest : List String
  /-- Whether a header has been written. -/
  headed : Bool := false
  status : Status
  deriving Inhabited

/-- Directory after directory, with headers if that is asked for. -/
def showDirectories (listing : Listing) (headers : Bool) (shelf : Shelf) : Tool Status :=
  iterate (fun shelf => do
    match shelf.rest with
    | [] => return .inr shelf.status
    | path :: rest =>
      match ← entriesOf listing path with
      | .error errno =>
        complain ("cannot open directory " ++ Text.quotedName path ++ ": " ++ errorText errno)
        return .inl { shelf with rest, status := 2 }
      | .ok entries =>
        if headers then
          emit (Text.encode (if shelf.headed then "\n" else ""))
          emit (Text.encode (listing.styled ":" path ++ ":\n"))
        emit (Text.encode (listing.total entries ++ listing.text (listing.margins entries) entries))
        let inner := if listing.recursive then
            (entries.filter fun entry => entry.status.kind = .directory && entry.name ≠ "." &&
              entry.name ≠ "..").map fun entry => pathWithin path entry.name
          else []
        return .inl { shelf with rest := inner ++ rest, headed := true }) shelf

/-! ## ls -/

def ls (args : List String) : Tool Status := do
  let arguments ← parseArguments lsGrammar 2 args fun _ option value => settleLs option value
  let listing ← (arguments.options.foldl (fun (listing : Listing) (option, value) =>
    listing.withOption option value) {}).withEnvironment arguments
  let operands := if arguments.operands.isEmpty then ["."] else arguments.operands
  let mut status : Status := 0
  let mut found : List Listed := []
  for operand in operands do
    match ← operandStatus listing.following operand with
    | .error errno =>
      complain ("cannot access " ++ Text.quotedName operand ++ ": " ++ errorText errno)
      status := 2
    | .ok entry => found := found ++ [⟨operand, entry⟩]
  let isDirectory (entry : Listed) : Bool :=
    entry.status.kind = .directory && !listing.itself
  let sorted := listing.arrange found
  let files := sorted.filter (!isDirectory ·)
  let directories := sorted.filter isDirectory
  emit (Text.encode (listing.text (listing.margins found) files))
  if !files.isEmpty && !directories.isEmpty then
    emit (Text.encode "\n")
  let headers := listing.recursive || 1 < operands.length || !files.isEmpty
  let failed ← showDirectories listing headers
    { rest := directories.map (·.name), status := 0 }
  return if failed = 0 then status else failed

end TinyShell.Machine.Tool
