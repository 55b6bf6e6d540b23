import TinyShell.Command.Basic
import TinyShell.Token.Lexer

/-!
# Parser

Tokens as a command. `;` splits a line into parts and `|` splits a part into stages; a stage is
words, then redirections and `&`. Faults are collected and do not stop the parser, except that a
part over a limit makes the whole line invalid.
-/

namespace TinyShell

namespace Token

/-- The tokens between separators of a kind: one section more than there are separators. -/
def sections (separator : TokenKind) : List Token → List (List Token)
  | [] => [[]]
  | token :: rest =>
    if token.kind = separator then
      [] :: sections separator rest
    else
      match sections separator rest with
      | [] => [[token]]
      | first :: others => (token :: first) :: others

end Token

/-- The redirection that a symbol asks for. -/
def TokenKind.redirection? : TokenKind → Option RedirKind
  | redirIn => some .input
  | redirOut => some .output
  | redirAppend => some .append
  | _ => none

namespace SimpleCommand

/-- What follows the words of a stage. A redirection needs a word after it, and a word needs a
redirection before it: the first that lacks its partner ends the stage. Other symbols have no
place here and are passed over. -/
def parseTail (command : SimpleCommand) : List Token → SimpleCommand
  | [] => command
  | token :: rest =>
    match token.kind with
    | .background => parseTail { command with background := true } rest
    | .word => (command.withFault .argumentAfterRedirect).withFault .syntaxError
    | kind =>
      match kind.redirection? with
      | none => parseTail (command.withFault .syntaxError) rest
      | some redirection =>
        match rest with
        | [] => command.withFault .missingDestination
        | destination :: rest =>
          if destination.isWord then
            parseTail
              { command with slots := command.slots.redirect redirection destination.value } rest
          else
            command.withFault .missingDestination

/-- A stage: at most `maxArgs` words, then its tail. One word too many ends it. -/
def parse (tokens : List Token) : SimpleCommand :=
  let words := (tokens.takeWhile Token.isWord).map Token.value
  if words.length ≤ maxArgs then
    parseTail { argv := words } (tokens.dropWhile Token.isWord)
  else
    withFault { argv := words.take maxArgs } .tooManyArguments

end SimpleCommand

namespace Pipeline

/-- Stages as a pipeline. Its faults are theirs, and one more if there are too many of them. -/
def ofStages (stages : List SimpleCommand) : Pipeline where
  stages := stages
  faults := stages.foldl (fun faults stage => faults ∪ stage.faults)
    (if maxStages < stages.length then .of .pipelineTooLong else ∅)

end Pipeline

namespace Command

/-- A stage that stands alone. Without words it is no command, whatever it redirects. -/
def ofStage (stage : SimpleCommand) : Command :=
  if stage.faults.overCapacity then .invalid stage.faults
  else if stage.isEmpty then .empty stage.faults
  else .simple stage

/-- Stages joined by `|`. -/
def ofPipeline (pipeline : Pipeline) : Command :=
  if pipeline.faults.overCapacity then .invalid pipeline.faults else .pipeline pipeline

/-- The stages of one part, each from its tokens. -/
def ofStages : List (List Token) → Command
  | [stage] => ofStage (.parse stage)
  | stages => ofPipeline (.ofStages (stages.map .parse))

/-- A part has too many stages for what is left of the line's budget. -/
def overBudget (stages : Nat) : Command :=
  .invalid (if maxStages < stages then Faults.of .tooManyCommands |>.insert .pipelineTooLong
    else .of .tooManyCommands)

/-- One part, after `used` stages of the line, with the stages used after it. An empty part is
free. -/
def ofPart (used : Nat) (part : List Token) : Command × Nat :=
  match part with
  | [] => (.empty ∅, used)
  | part =>
    let stages := Token.sections .pipe part
    if maxCommands < used + stages.length then
      (overBudget stages.length, used)
    else
      (ofStages stages, used + stages.length)

/-- The commands of the parts that have one, and the faults of all; or the faults of the first part
over a limit. -/
def ofParts (used : Nat) : List (List Token) → Except Faults (List Command × Faults)
  | [] => .ok ([], ∅)
  | part :: parts =>
    let (command, used) := ofPart used part
    if command.faults.overCapacity then
      .error command.faults
    else
      match ofParts used parts with
      | .error faults => .error faults
      | .ok (commands, faults) =>
        .ok (if command.isEmpty then commands else command :: commands, command.faults ∪ faults)

/-- Entries as a command. One entry that has all the faults of the line is the line. -/
def ofEntries (entries : List Command) (faults : Faults) : Command :=
  match entries with
  | [] => .empty faults
  | [entry] => if faults = entry.faults then entry else .list [entry] faults
  | entries => .list entries faults

/-- Tokens without `;`. -/
def parsePipeline (tokens : List Token) : Command := (ofPart 0 tokens).1

/-- A whole line. A line that lost tokens is invalid. -/
def parse (list : TokenList) : Command :=
  if list.truncated then
    .invalid (.of .tooManyTokens)
  else
    match ofParts 0 (Token.sections .list list.tokens) with
    | .error faults => .invalid faults
    | .ok (entries, faults) => ofEntries entries faults

/-- The command on a line. -/
def ofLine (line : String) : Command := parse (.ofLine line)

end Command

end TinyShell
