import TinyShell.Machine.Sh.Reader

/-!
# Parsing scripts

From characters to commands. A script is read one complete command at a time: what follows it has
no influence, and may not be known yet.
-/

namespace TinyShell.Machine.Sh

/-! ## Where a piece of a word stands -/

/-- Where a piece of a word stands. -/
inductive Place where
  | plain
  /-- Between double quotes; `nested` inside braces. -/
  | double (nested : Bool)
  | braces
  /-- Inside braces that are quoted as a whole; `inner` behind one more quote. -/
  | quotedBraces (inner : Bool)
  | arithmetic (depth : Nat)
  /-- In a document that ends with a line of its own. -/
  | document (marker : String) (stripsTabs : Bool)
  deriving Inhabited

namespace Place

/-- Whether what stands there is quoted. -/
def isQuoted : Place → Bool
  | plain | braces => false
  | _ => true

/-- Whether a backslash before a character stands for itself. -/
def keepsBackslash (place : Place) (c : Char) : Bool :=
  let common := c = '\\' || c = '\x60' || c = '$'
  match place with
  | plain | braces => false
  | double nested => !(common || c = '"' || (nested && c = '\x7d'))
  | quotedBraces _ => !(common || c = '"' || c = '\x7d')
  | arithmetic _ => !(common || c = '"')
  | document .. => !common

/-- The message about a script that ends there; a word can end in plain text. -/
def unfinished? : Place → Option String
  | plain | document .. => none
  | double _ | quotedBraces _ => some "Unterminated quoted string"
  | braces => some "Missing '\x7d'"
  | arithmetic _ => some "Missing '))'"

end Place

/-- The characters that end a word. -/
def endsWord (c : Char) : Bool := " \t\n;&|<>()".contains c

namespace Reading

/-! ## Small parts -/

/-- The characters up to a single quote. -/
def untilQuote : (fuel : Nat) → List Piece → Reading (List Piece)
  | 0, acc => return acc
  | fuel + 1, acc => do
    match ← next with
    | none => wrong "Unterminated quoted string"
    | some '\'' => return acc
    | some c =>
      if c = '\n' then
        nextLine
      untilQuote fuel (.char c true :: acc)

/-- The text between backquotes, without the backslashes that only shield it. -/
def backquoted (quoted : Bool) : (fuel : Nat) → List Char → Reading (List Char)
  | 0, acc => return acc.reverse
  | fuel + 1, acc => do
    match ← nextJoined fuel with
    | none => wrong "EOF in backquote substitution"
    | some '\x60' => return acc.reverse
    | some '\\' =>
      match ← next with
      | none => wrong "EOF in backquote substitution"
      | some c =>
        let shields := c = '\\' || c = '\x60' || c = '$' || (quoted && c = '"')
        if c = '\n' then
          nextLine
        backquoted quoted fuel (if shields then c :: acc else c :: '\\' :: acc)
    | some c =>
      if c = '\n' then
        nextLine
      backquoted quoted fuel (c :: acc)

/-- Whether the document ends here. The line that ends it is passed over, and so are tabs that do
not count. -/
def atMarker (marker : String) (stripsTabs : Bool) : Reading Bool := do
  let reader ← get
  if !reader.final && !reader.chars.contains '\n' then
    throw .more
  let chars := if stripsTabs then reader.chars.dropWhile (· = '\t') else reader.chars
  let rest := chars.drop marker.length
  if marker.toList.isPrefixOf chars && (rest.isEmpty || rest.head? = some '\n') then
    set { reader with
      chars := rest.drop 1, line := reader.line + (if rest.isEmpty then 0 else 1) }
    return true
  else
    set { reader with chars }
    return false

/-- A document in which nothing stands for anything else. -/
def plainDocument (marker : String) (stripsTabs : Bool) : (fuel : Nat) → List Piece →
    Reading (List Piece)
  | 0, acc => return acc
  | fuel + 1, acc => do
    if (← get).chars.isEmpty && (← get).final then
      return acc
    if ← atMarker marker stripsTabs then
      return acc
    let reader ← get
    let line := reader.chars.takeWhile (· ≠ '\n')
    let behind := reader.chars.drop line.length
    set { reader with chars := behind.drop 1, line := reader.line + 1 }
    let ended := if behind.isEmpty then [] else [Piece.char '\n' true]
    plainDocument marker stripsTabs fuel
      (ended ++ line.foldl (fun acc c => .char c true :: acc) acc)

/-- The end because of a token that is not the one expected. -/
def unexpected {α : Type} (wanted : Option Token) : Reading α := do
  let found := (← get).last.name
  wrong (found ++ " unexpected" ++
    match wanted with
    | some token => " (expecting " ++ token.name ++ ")"
    | none => "")

/-- The mark of an operator on descriptors behind the first character, and its kind. -/
def redirectKind (first : Char) : Reading (RedirectKind × Bool) := do
  match first, ← nextJoined 1000 with
  | '>', some '>' => return (.append, false)
  | '>', some '|' => return (.clobber, false)
  | '>', some '&' => return (.copyOut, false)
  | '>', c =>
    back c
    return (.write, false)
  | _, some '<' =>
    match ← nextJoined 1000 with
    | some '-' => return (.document 0, true)
    | c =>
      back c
      return (.document 0, false)
  | _, some '&' => return (.copyIn, false)
  | _, some '>' => return (.readWrite, false)
  | _, c =>
    back c
    return (.read, false)

/-- The rest of a comment. -/
def skipComment : (fuel : Nat) → Reading Unit
  | 0 => return ()
  | fuel + 1 => do
    match ← next with
    | some '\n' => back (some '\n')
    | none => return ()
    | some _ => skipComment fuel

/-- The names that no function can have. -/
def reservedNames : List String :=
  [".", ":", "break", "continue", "eval", "exec", "exit", "export", "readonly", "return", "set",
    "shift", "times", "trap", "unset"]

/-- What a form of a parameter is called by, behind the name and perhaps a colon. -/
def formOf? (c : Char) (empty : Bool) : Option Form :=
  match c with
  | '-' => some (.orElse empty)
  | '+' => some (.ifSet empty)
  | '?' => some (.orFail empty)
  | '=' => some (.orAssign empty)
  | _ => none

/-- A command in the background. -/
def inBackground : Command → Command
  | .pipeline _ stages => .pipeline true stages
  | .redirected line body redirects => .background line body redirects
  | command => .background 0 command []

/-- A redirection of a command as a whole. -/
def withRedirects (line : Nat) (redirects : List Redirect) (command : Command) : Command :=
  if redirects.isEmpty then command
  else match command with
    | .subshell line body _ => .subshell line body redirects
    | command => .redirected line command redirects

/-- One command after another. -/
def followedBy (first : Option Command) (second : Command) : Command :=
  match first with
  | some first => .sequence first second
  | none => second

/-! ## Words, tokens and commands -/

mutual

/-- The pieces at a place, the last one first, up to its end. `marker` says that dollar signs and
backquotes stand for themselves. -/
def pieces : (fuel : Nat) → (marker : Bool) → Place → List Piece → Reading (List Piece)
  | 0, _, _, acc => return acc
  | fuel + 1, marker, place, acc => do
    let quoted := place.isQuoted
    let literal (c : Char) : Reading (List Piece) :=
      pieces fuel marker place (.char c quoted :: acc)
    match ← nextJoined fuel with
    | none =>
      match place.unfinished? with
      | some message => wrong message
      | none => return acc
    | some '\\' =>
      match ← next with
      | none => pieces fuel marker place (.char '\\' true :: acc)
      | some c =>
        if c = '\n' then
          nextLine
        let kept := if place.keepsBackslash c then .char '\\' true :: acc else acc
        pieces fuel marker place (.char c true :: kept)
    | some '\x60' =>
      if marker then literal '\x60'
      else do
        let text ← backquoted quoted fuel []
        let outer ← get
        -- The text is a script of its own, with its own first line.
        set { outer with
          chars := text, line := 1, final := true, frames := [], announced := []
          again := false, expecting := {} }
        let body ← list fuel false true none
        let inner ← get
        set { outer with documents := inner.documents, count := inner.count }
        pieces fuel marker place (.command (body.getD .nothing) quoted :: acc)
    | some '$' =>
      if marker then literal '$'
      else do pieces fuel marker place (.append (← dollar fuel place) acc)
    | some c =>
      match place, c with
      | .plain, '\'' | .braces, '\'' => do
        let inside ← untilQuote fuel (.quote :: acc)
        pieces fuel marker place (.quote :: inside)
      | .plain, '"' => do
        let inside ← pieces fuel marker (.double false) (.quote :: acc)
        pieces fuel marker place (.quote :: inside)
      | .braces, '"' => do
        let inside ← pieces fuel marker (.double true) (.quote :: acc)
        pieces fuel marker place (.quote :: inside)
      | .double _, '"' => return acc
      | .quotedBraces inner, '"' => pieces fuel marker (.quotedBraces (!inner)) (.quote :: acc)
      | .braces, '\x7d' | .quotedBraces false, '\x7d' => return acc
      | .arithmetic depth, '(' => pieces fuel marker (.arithmetic (depth + 1)) (.char c true :: acc)
      | .arithmetic (depth + 1), ')' =>
        pieces fuel marker (.arithmetic depth) (.char c true :: acc)
      | .arithmetic 0, ')' =>
        match ← nextJoined fuel with
        | some ')' => return acc
        | c =>
          back c
          literal ')'
      | .document end_ stripsTabs, '\n' => do
        nextLine
        let acc := .char '\n' true :: acc
        if ← atMarker end_ stripsTabs then return acc
        else pieces fuel marker place acc
      | .plain, c =>
        if endsWord c then do
          back (some c)
          return acc
        else literal c
      | _, c => do
        if c = '\n' then
          nextLine
        literal c

/-- What a dollar sign stands for, the last piece first. -/
def dollar : (fuel : Nat) → Place → Reading (List Piece)
  | 0, _ => return []
  | fuel + 1, place => do
    let quoted := place.isQuoted
    match ← nextJoined fuel with
    | some '(' =>
      match ← nextJoined fuel with
      | some '(' => do
        let inside ← pieces fuel false (.arithmetic 0) []
        return [.arithmetic inside.reverse quoted]
      | c => do
        back c
        let outer ← get
        set { outer with announced := [] }
        let body ← list fuel false true none
        match ← token fuel with
        | .closeParen => pure ()
        | _ => unexpected (some .closeParen)
        let inner ← get
        -- A document that has not begun yet is empty.
        let missed := inner.announced.map fun (announced : Announced) =>
          (announced.index, ([] : Word))
        set { inner with
          announced := outer.announced, documents := missed ++ inner.documents
          expecting := {}, again := false }
        return [.command (body.getD .nothing) quoted]
    | some '\x7b' => do return [← parameter fuel place]
    | some c =>
      if isNameStart c then
        let (name, behind) ← nameChars isNameChar fuel (some c) []
        back behind
        return [.parameter name .plain [] quoted]
      else if isSpecial c then return [.parameter c.toString .plain [] quoted]
      else
        back (some c)
        return [.char '$' quoted]
    | none => return [.char '$' quoted]

/-- A parameter in braces, of which the first one has been read. -/
def parameter : (fuel : Nat) → Place → Reading Piece
  | 0, _ => return .quote
  | fuel + 1, place => do
    let quoted := place.isQuoted
    let rest (name : String) (form : Form) (inside : Place) : Reading Piece := do
      let word ← pieces fuel false inside []
      return .parameter name form word.reverse quoted
    let same : Place := if quoted then .quotedBraces false else .braces
    let bad : Reading Piece := rest "" .wrong same
    let c ← nextJoined fuel
    -- The name, what follows it, and whether its length is asked for.
    let named (c : Option Char) : Reading (Option (String × Option Char)) := do
      match c with
      | some d =>
        if isNameStart d then return some (← nameChars isNameChar fuel c [])
        else if d.isDigit then return some (← nameChars Char.isDigit fuel c [])
        else if isSpecial d then return some (d.toString, ← nextJoined fuel)
        else return none
      | none => return none
    let length? : Option (String × Option Char) ← do
      if c = some '#' then
        let d ← nextJoined fuel
        match d with
        | some e =>
          if isNameChar e then named d
          else do
            let behind ← nextJoined fuel
            if e ≠ '\x7d' && behind = some '\x7d' then
              if isSpecial e then pure (some (e.toString, behind))
              else pure (some ("", none))
            else do
              back behind
              back d
              pure none
        | none => pure none
      else pure none
    match length? with
    | some (name, behind) =>
      if behind = some '\x7d' then return .parameter name .length [] quoted
      else if name.isEmpty then return .parameter "" .wrong [] quoted
      else do
        back behind
        bad
    | none =>
      match ← named c with
      | none =>
        if c = some '\x7d' then
          back c
        bad
      | some (name, behind) =>
        let (empty, mark) ← if behind = some ':' then pure (true, ← nextJoined fuel)
          else pure (false, behind)
        match empty, mark with
        | false, some '\x7d' => return .parameter name .plain [] quoted
        | false, some '#' =>
          match ← nextJoined fuel with
          | some '#' => rest name (.trimLeft true) .braces
          | c =>
            back c
            rest name (.trimLeft false) .braces
        | false, some '%' =>
          match ← nextJoined fuel with
          | some '%' => rest name (.trimRight true) .braces
          | c =>
            back c
            rest name (.trimRight false) .braces
        | empty, some c =>
          match formOf? c empty with
          | some form => rest name form same
          | none => bad
        | _, none => bad

/-- A new token, whatever it stands for. -/
def freshToken : (fuel : Nat) → Reading Token
  | 0 => return .finish
  | fuel + 1 => do
    match ← nextJoined fuel with
    | none => return .finish
    | some c =>
      match c with
      | ' ' | '\t' => freshToken fuel
      | '#' =>
        skipComment (← get).chars.length
        freshToken fuel
      | '\n' =>
        nextLine
        return .newline
      | '&' => followed fuel '&' .andIf .ampersand
      | '|' => followed fuel '|' .orIf .bar
      | ';' => followed fuel ';' .endCase .semicolon
      | '(' => return .openParen
      | ')' => return .closeParen
      | c =>
        back (some c)
        let word := (← pieces fuel (← get).expecting.marker .plain []).reverse
        let digit? : Option Nat := match word with
          | [] => some 2
          | [.char c false] => if c.isDigit then some (c.toNat - '0'.toNat) else none
          | _ => none
        match digit?, ← next with
        | some fd, some d =>
          if d = '<' || d = '>' then
            let (kind, strips) ← redirectKind d
            let fd := if !word.isEmpty then fd else if d = '<' then 0 else 1
            return .redirect fd kind strips
          else do
            back (some d)
            return .word word
        | _, d =>
          back d
          return .word word

/-- One of two tokens, the first if a character follows. -/
def followed : (fuel : Nat) → (c : Char) → (double single : Token) → Reading Token
  | 0, _, _, single => return single
  | fuel + 1, c, double, single => do
    let d ← nextJoined fuel
    if d = some c then return double
    else do
      back d
      return single

/-- The next token that is no newline, behind the documents of the lines before it. -/
def passNewlines : (fuel : Nat) → Token → Reading Token
  | 0, token => return token
  | fuel + 1, token => do
    match token with
    | .newline => do
      documents fuel
      passNewlines fuel (← freshToken fuel)
    | token => return token

/-- The next token, as it is expected to be. -/
def token : (fuel : Nat) → Reading Token
  | 0 => return .finish
  | fuel + 1 => do
    let reader ← get
    let wanted := reader.expecting
    let found ← if reader.again then do
        set { reader with again := false }
        pure reader.last
      else freshToken fuel
    let found ← if wanted.newlines then passNewlines fuel found else pure found
    let wanted : Expecting :=
      { wanted with aliases := wanted.aliases || (← get).expecting.aliases }
    modify fun reader => { reader with expecting := {}, last := found }
    match found with
    | .word word =>
      match plainText? word with
      | none => return found
      | some text =>
        match (if wanted.keywords then Keyword.ofText? text else none) with
        | some keyword =>
          modify fun reader => { reader with last := .keyword keyword }
          return .keyword keyword
        | none =>
          if !wanted.aliases then return found
          else
            let reader ← get
            match reader.aliases.lookup text with
            | none => return found
            | some value =>
              if reader.frames.any (·.1 = text) then return found
              else
                set { reader with
                  frames := (text, value, value.toList) :: reader.frames, expecting := wanted }
                token fuel
    | found => return found

/-- The documents that were announced. -/
def documents : (fuel : Nat) → Reading Unit
  | 0 => return ()
  | fuel + 1 => do
    match (← get).announced with
    | [] => return ()
    | announced :: rest =>
      modify fun reader => { reader with announced := rest }
      let length := (← get).chars.length
      let body ← if announced.quoted then
          plainDocument announced.marker announced.stripsTabs (length + 1) []
        else if ← atMarker announced.marker announced.stripsTabs then pure []
        else pieces fuel false (.document announced.marker announced.stripsTabs) []
      modify fun reader =>
        { reader with documents := (announced.index, body.reverse) :: reader.documents }
      documents fuel

/-- What a redirection is to, and the redirection. -/
def redirectWord : (fuel : Nat) → (fd : Nat) → RedirectKind → (stripsTabs : Bool) →
    Reading Redirect
  | 0, fd, kind, _ => return .mk fd kind []
  | fuel + 1, fd, kind, stripsTabs => do
    let isDocument := match kind with
      | .document _ => true
      | _ => false
    if isDocument then
      expect { marker := true }
    match ← token fuel with
    | .word word =>
      if isDocument then do
        let marker := String.ofList (word.filterMap fun
          | .char c _ => some c
          | _ => none)
        let reader ← get
        let index := reader.count
        let announced : Announced := { index, marker, stripsTabs, quoted := isQuoted word }
        set { reader with
          count := index + 1
          announced := reader.announced ++ [announced] }
        return .mk fd (.document index) []
      else return .mk fd kind word
    | _ => unexpected none

/-- Commands up to a token that ends them. At the `top` a newline does so; a token that closes
something does if `mayClose` says so. -/
def list : (fuel : Nat) → (top mayClose : Bool) → Option Command → Reading (Option Command)
  | 0, _, _, found => return found
  | fuel + 1, top, mayClose, found => do
    expect { aliases := true, keywords := true, newlines := !top }
    match ← token fuel with
    | .newline => do
      documents fuel
      return some (found.getD .nothing)
    | .finish => do
      documents fuel
      pushBack
      return found
    | first => do
      pushBack
      if mayClose && !top && first.closes then
        return found
      let command ← andOr fuel
      let behind ← token fuel
      let command := match behind with
        | .ampersand => inBackground command
        | _ => command
      let found := some (followedBy found command)
      match behind with
      | .finish => do
        documents fuel
        pushBack
        return found
      | .newline => do
        pushBack
        list fuel top true found
      | .ampersand | .semicolon => list fuel top true found
      | _ => do
        if top then
          unexpected none
        pushBack
        return found

/-- Pipelines joined by `&&` and `||`. -/
def andOr : (fuel : Nat) → Reading Command
  | 0 => return .nothing
  | fuel + 1 => do moreAndOr fuel (← pipeline fuel)

/-- The pipelines behind a command. -/
def moreAndOr : (fuel : Nat) → Command → Reading Command
  | 0, first => return first
  | fuel + 1, first => do
    match ← token fuel with
    | .andIf => do
      expect .anywhere
      moreAndOr fuel (.and first (← pipeline fuel))
    | .orIf => do
      expect .anywhere
      moreAndOr fuel (.or first (← pipeline fuel))
    | _ => do
      pushBack
      return first

/-- Commands joined by bars, perhaps negated. -/
def pipeline : (fuel : Nat) → Reading Command
  | 0 => return .nothing
  | fuel + 1 => do
    let negated ← match ← token fuel with
      | .keyword .bang => do
        expect .command
        pure true
      | _ => do
        pushBack
        pure false
    let first ← command fuel
    let stages ← moreStages fuel
    let whole := if stages.isEmpty then first else .pipeline false (first :: stages)
    return if negated then .not whole else whole

/-- The commands behind a bar. -/
def moreStages : (fuel : Nat) → Reading (List Command)
  | 0 => return []
  | fuel + 1 => do
    match ← token fuel with
    | .bar => do
      expect .anywhere
      let stage ← command fuel
      return stage :: (← moreStages fuel)
    | _ => do
      pushBack
      return []

/-- A keyword that must come. -/
def keywordNext : (fuel : Nat) → Keyword → Reading Unit
  | 0, _ => return ()
  | fuel + 1, keyword => do
    let found := match ← token fuel with
      | .keyword found => some found
      | _ => none
    unless found = some keyword do
      unexpected (some (.keyword keyword))

/-- Commands that must end with a keyword. -/
def block : (fuel : Nat) → Keyword → Reading Command
  | 0, _ => return .nothing
  | fuel + 1, keyword => do
    let body ← list fuel false false none
    keywordNext fuel keyword
    return body.getD .nothing

/-- A condition behind `if`, with what depends on it, up to `fi`. -/
def branches : (fuel : Nat) → Reading Command
  | 0 => return .nothing
  | fuel + 1 => do
    let test ← block fuel .thenWord
    let yes := (← list fuel false false none).getD .nothing
    match ← token fuel with
    | .keyword .elifWord => return .branch test yes (← branches fuel)
    | .keyword .elseWord => return .branch test yes (← block fuel .fiWord)
    | .keyword .fiWord => return .branch test yes .nothing
    | _ => unexpected (some (.keyword .fiWord))

/-- The words behind `in`. -/
def words : (fuel : Nat) → Reading (List Word)
  | 0 => return []
  | fuel + 1 => do
    match ← token fuel with
    | .word word => return word :: (← words fuel)
    | .newline | .semicolon => return []
    | _ => unexpected none

/-- A loop over words, behind `for`. -/
def eachLoop : (fuel : Nat) → (line : Nat) → Reading Command
  | 0, _ => return .nothing
  | fuel + 1, line => do
    let name := match ← token fuel with
      | .word word => (plainText? word).getD ""
      | _ => ""
    unless isName name do
      wrong "Bad for loop variable"
    expect .anywhere
    let words ← match ← token fuel with
      | .keyword .inWord => words fuel
      | .semicolon => pure [[.parameter "@" .plain [] true]]
      | _ => do
        pushBack
        pure [[.parameter "@" .plain [] true]]
    expect .anywhere
    keywordNext fuel .doWord
    return .each line name words (← block fuel .doneWord)

/-- The patterns of a case, `first` being the first token of them. -/
def patterns : (fuel : Nat) → (first : Token) → Reading (List Word)
  | 0, _ => return []
  | fuel + 1, first => do
    let word ← match first with
      | .word word => pure word
      | .keyword keyword => pure (keyword.text.toList.map (.char · false))
      | _ => unexpected none
    match ← token fuel with
    | .bar => return word :: (← patterns fuel (← token fuel))
    | .closeParen => return [word]
    | _ => unexpected (some .closeParen)

/-- Cases up to `esac`. -/
def cases : (fuel : Nat) → Reading (List Case)
  | 0 => return []
  | fuel + 1 => do
    expect { keywords := true, newlines := true }
    match ← token fuel with
    | .keyword .esacWord => return []
    | first => do
      let first ← match first with
        | .openParen => token fuel
        | first => pure first
      let patterns ← patterns fuel first
      let body := (← list fuel false true none).getD .nothing
      expect { keywords := true, newlines := true }
      match ← token fuel with
      | .keyword .esacWord => return [.mk patterns body]
      | .endCase => return .mk patterns body :: (← cases fuel)
      | _ => unexpected (some .endCase)

/-- A choice by patterns, behind `case`. -/
def selection : (fuel : Nat) → (line : Nat) → Reading Command
  | 0, _ => return .nothing
  | fuel + 1, line => do
    match ← token fuel with
    | .word word =>
      expect .anywhere
      keywordNext fuel .inWord
      return .select line word (← cases fuel)
    | _ => unexpected (some (.word []))

/-- The redirections behind a command. -/
def trailing : (fuel : Nat) → Reading (List Redirect)
  | 0 => return []
  | fuel + 1 => do
    match ← token fuel with
    | .redirect fd kind strips => do
      let redirect ← redirectWord fuel fd kind strips
      return redirect :: (← trailing fuel)
    | _ => do
      pushBack
      return []

/-- A command that is no pipeline. -/
def command : (fuel : Nat) → Reading Command
  | 0 => return .nothing
  | fuel + 1 => do
    let line := (← get).line
    let behind (found : Command) : Reading Command := do
      expect .command
      return withRedirects line (← trailing fuel) found
    match ← token fuel with
    | .keyword .ifWord => do behind (← branches fuel)
    | .keyword .whileWord => do
      let test ← block fuel .doWord
      behind (.loop false test (← block fuel .doneWord))
    | .keyword .untilWord => do
      let test ← block fuel .doWord
      behind (.loop true test (← block fuel .doneWord))
    | .keyword .forWord => do behind (← eachLoop fuel line)
    | .keyword .caseWord => do behind (← selection fuel line)
    | .keyword .openBrace => do behind (← block fuel .closeBrace)
    | .openParen => do
      let body := (← list fuel false false none).getD .nothing
      match ← token fuel with
      | .closeParen => behind (.subshell line body [])
      | _ => unexpected (some .closeParen)
    | .word _ | .redirect .. => do
      pushBack
      simple fuel (← get).line true [] [] []
    | _ => unexpected none

/-- A simple command: assignments first, then words, with redirections anywhere. -/
def simple : (fuel : Nat) → (line : Nat) → (starting : Bool) → (assignments words : List Word) →
    List Redirect → Reading Command
  | 0, line, _, assignments, words, redirects =>
    return .simple line assignments.reverse words.reverse redirects.reverse
  | fuel + 1, line, starting, assignments, words, redirects => do
    expect { aliases := starting }
    match ← token fuel with
    | .word word =>
      if starting && (assignmentLength? word).isSome then
        simple fuel line true (word :: assignments) words redirects
      else simple fuel line false assignments (word :: words) redirects
    | .redirect fd kind strips => do
      let redirect ← redirectWord fuel fd kind strips
      simple fuel line starting assignments words (redirect :: redirects)
    | .openParen =>
      match words, assignments, redirects with
      | [word], [], [] => function fuel word
      | _, _, _ => do
        pushBack
        return .simple line assignments.reverse words.reverse redirects.reverse
    | _ => do
      pushBack
      return .simple line assignments.reverse words.reverse redirects.reverse

/-- The definition of a function, behind its name and the first parenthesis. -/
def function : (fuel : Nat) → Word → Reading Command
  | 0, _ => return .nothing
  | fuel + 1, word => do
    match ← token fuel with
    | .closeParen =>
      let name := (plainText? word).getD ""
      if !isName name || reservedNames.contains name then
        wrong "Bad function name"
      expect .anywhere
      let line := (← get).line
      return .function line name (← command fuel)
    | _ => unexpected (some .closeParen)

end

end Reading

/-! ## Complete commands -/

/-- A command of a script, with what is left behind it. -/
structure Parsed where
  command : Command
  documents : List (Nat × Word)
  rest : List Char
  line : Nat
  /-- Whether nothing is left. -/
  isLast : Bool
  deriving Inhabited

/-- The next complete command of a script, nothing at its end. -/
def parseCommand (aliases : List (String × String)) (chars : List Char) (line : Nat)
    (final : Bool) : Except Trouble (Option Parsed) := do
  let start : Reader := { chars, line, final, aliases }
  let longest := aliases.foldl (fun size (_, value) => size + value.length) 0
  let fuel := 2 * chars.length + 2 * longest + 1000
  let (found, reader) ← (Reading.list fuel true false none).run start
  let left := reader.frames.flatMap (·.2.2) ++ reader.chars
  return found.map fun command =>
    { command
      documents := reader.documents
      rest := left
      line := reader.line
      isLast := reader.again && left.isEmpty && final }

end TinyShell.Machine.Sh
