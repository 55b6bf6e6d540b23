/-!
# Faults

What the parser finds wrong with a line. A fault is advice as long as the command can still run; a
capacity fault means that part of the line was dropped, and then nothing of it may run.
-/

namespace TinyShell

/-- The faults, in the order in which sets of them are listed. -/
inductive Fault where
  | syntaxError
  | tooManyArguments
  | missingDestination
  | argumentAfterRedirect
  | pipelineTooLong
  | tooManyCommands
  | tooManyTokens
  | unknownType
  deriving DecidableEq, Repr, Inhabited

namespace Fault

/-- Every fault, in order. -/
def all : List Fault :=
  [syntaxError, tooManyArguments, missingDestination, argumentAfterRedirect, pipelineTooLong,
    tooManyCommands, tooManyTokens, unknownType]

/-- The fault as the user reads it. -/
def text : Fault → String
  | syntaxError => "syntax error"
  | tooManyArguments => "too many arguments"
  | missingDestination => "missing redirection destination"
  | argumentAfterRedirect => "argument after redirection"
  | pipelineTooLong => "pipeline too long"
  | tooManyCommands => "too many commands"
  | tooManyTokens => "too many tokens"
  | unknownType => "unknown command type"

/-- Whether part of the line was dropped. -/
def isCapacity : Fault → Bool
  | tooManyArguments | pipelineTooLong | tooManyCommands | tooManyTokens => true
  | _ => false

/-- The bit of a fault in a set: its place in the order. -/
def bit : Fault → Nat
  | syntaxError => 0
  | tooManyArguments => 1
  | missingDestination => 2
  | argumentAfterRedirect => 3
  | pipelineTooLong => 4
  | tooManyCommands => 5
  | tooManyTokens => 6
  | unknownType => 7

end Fault

/-- A set of faults, one bit for each. -/
structure Faults where
  mask : BitVec 8
  deriving DecidableEq, Repr

namespace Faults

instance : EmptyCollection Faults := ⟨⟨0⟩⟩

instance : Inhabited Faults := ⟨∅⟩

/-- Membership as a test. -/
def contains (faults : Faults) (fault : Fault) : Bool := faults.mask.getLsbD fault.bit

instance : Membership Fault Faults := ⟨fun faults fault => faults.contains fault = true⟩

instance (fault : Fault) (faults : Faults) : Decidable (fault ∈ faults) :=
  inferInstanceAs (Decidable (faults.contains fault = true))

instance : Union Faults := ⟨fun a b => ⟨a.mask ||| b.mask⟩⟩

/-- The set of one fault. -/
def of (fault : Fault) : Faults := ⟨BitVec.twoPow 8 fault.bit⟩

def insert (faults : Faults) (fault : Fault) : Faults := faults ∪ of fault

/-- The set of the faults listed. -/
def ofList (faults : List Fault) : Faults := faults.foldl insert ∅

/-- The members, in the order of the faults. -/
def toList (faults : Faults) : List Fault := Fault.all.filter faults.contains

def isEmpty (faults : Faults) : Bool := faults.mask = 0

/-- Whether some member is a capacity fault. -/
def overCapacity (faults : Faults) : Bool := faults.toList.any Fault.isCapacity

/-- The texts of the members joined by commas; the empty set is well. -/
def text (faults : Faults) : String :=
  if faults.isEmpty then "OK" else ", ".intercalate (faults.toList.map Fault.text)

@[ext]
theorem ext {a b : Faults} (h : ∀ fault, fault ∈ a ↔ fault ∈ b) : a = b := by
  have bits : ∀ fault : Fault, a.mask.getLsbD fault.bit = b.mask.getLsbD fault.bit := fun fault =>
    Bool.eq_iff_iff.2 (h fault)
  have : a.mask = b.mask := by
    apply BitVec.eq_of_getLsbD_eq
    intro i hi
    match i, hi with
    | 0, _ => exact bits .syntaxError
    | 1, _ => exact bits .tooManyArguments
    | 2, _ => exact bits .missingDestination
    | 3, _ => exact bits .argumentAfterRedirect
    | 4, _ => exact bits .pipelineTooLong
    | 5, _ => exact bits .tooManyCommands
    | 6, _ => exact bits .tooManyTokens
    | 7, _ => exact bits .unknownType
  cases a; cases b; simp_all

@[simp]
theorem not_mem_empty (fault : Fault) : fault ∉ (∅ : Faults) := by
  cases fault <;> decide

@[simp]
theorem mem_union {fault : Fault} {a b : Faults} : fault ∈ a ∪ b ↔ fault ∈ a ∨ fault ∈ b := by
  change (a.mask ||| b.mask).getLsbD fault.bit = true ↔
    a.mask.getLsbD fault.bit = true ∨ b.mask.getLsbD fault.bit = true
  simp

@[simp]
theorem mem_of {fault other : Fault} : fault ∈ of other ↔ fault = other := by
  cases fault <;> cases other <;> decide

@[simp]
theorem mem_insert {fault other : Fault} {faults : Faults} :
    fault ∈ faults.insert other ↔ fault ∈ faults ∨ fault = other := by
  simp [insert]

theorem mem_toList {fault : Fault} {faults : Faults} : fault ∈ faults.toList ↔ fault ∈ faults := by
  have : fault ∈ Fault.all := by cases fault <;> decide
  simp only [toList, List.mem_filter, this, true_and]
  rfl

end Faults

end TinyShell
