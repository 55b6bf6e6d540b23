/-!
# Handles

The numbers that processes know things by. All are 32 bits wide and signed.
-/

namespace TinyShell

/-- The number of an open file within a process. -/
abbrev Descriptor := Int32

/-- The number of a process. -/
abbrev Pid := Int32

/-- What a process leaves behind. -/
abbrev Status := Int32

namespace Descriptor

def input : Descriptor := 0

def output : Descriptor := 1

end Descriptor

end TinyShell
