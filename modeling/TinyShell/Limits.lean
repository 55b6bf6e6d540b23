/-!
# Limits

The capacities of the shell. A line past one of the parser's limits is rejected as a whole, so no
part of it runs.
-/

namespace TinyShell

/-- Bytes of one input line; what lies beyond is the next line. -/
def maxLineLength : Nat := 512

/-- Tokens of one line. -/
def maxTokens : Nat := 128

/-- Words of one simple command. -/
def maxArgs : Nat := 16

/-- Stages of one pipeline. -/
def maxStages : Nat := 8

/-- Simple commands of one line, over all its pipelines. -/
def maxCommands : Nat := 16

end TinyShell
