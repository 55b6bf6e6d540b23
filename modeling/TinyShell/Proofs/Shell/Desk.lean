import Mathlib.Data.List.AList
import TinyShell.Proofs.Shell.Table

/-!
# A system with tables

Processes of which nothing is known but what they have open. New descriptors get the lowest free
numbers, and only calls on descriptors that are not in use are refused. `Desk.host_keeps`: this
system keeps tables as `Host.Keeps` says.
-/

namespace TinyShell

/-- What a process has open. -/
structure Desk where
  files : AList fun _ : Descriptor => OpenFile

namespace Desk

def table (desk : Desk) : Table := fun fd => desk.files.lookup fd

/-- The desk with a descriptor that stands for this file, or for none. -/
def put (desk : Desk) (fd : Descriptor) (file : Option OpenFile) : Desk :=
  match file with
  | none => ⟨desk.files.erase fd⟩
  | some file => ⟨desk.files.insert fd file⟩

/-- The lowest number that is not in use. -/
def free? (desk : Desk) : Option Descriptor :=
  (List.range (desk.files.entries.length + 1)).map Int32.ofNat |>.find? fun fd =>
    (desk.table fd).isNone

/-- A number that no pipe has. -/
def pipe? (desk : Desk) : Option Nat :=
  (List.range (desk.files.entries.length + 1)).find? fun id =>
    desk.files.entries.all fun entry => entry.2 ≠ .readEnd id ∧ entry.2 ≠ .writeEnd id

/-- Both ends of a new pipe get the lowest numbers. -/
def makePipe (desk : Desk) : Except Errno Pipe × Desk :=
  match desk.free?, desk.pipe? with
  | some readEnd, some id =>
    let desk' := desk.put readEnd (some (.readEnd id))
    match desk'.free? with
    | some writeEnd => (.ok ⟨readEnd, writeEnd⟩, desk'.put writeEnd (some (.writeEnd id)))
    | none => (.error .emfile, desk)
  | _, _ => (.error .emfile, desk)

def answer : (request : Request) → Desk → request.Reply × Desk
  | .pipe, desk => desk.makePipe
  | .duplicate source target, desk =>
    if (desk.table source).isSome then (.ok (), desk.put target (desk.table source))
    else (.error .ebadf, desk)
  | .close fd, desk =>
    if (desk.table fd).isSome then (.ok (), desk.put fd none) else (.error .ebadf, desk)
  | .openFile path flags, desk =>
    match desk.free? with
    | some fd => (.ok fd, desk.put fd (some (.file path flags)))
    | none => (.error .emfile, desk)
  | .read .., desk => (.ok [], desk)
  | .write _ bytes, desk => (.ok bytes.length, desk)
  | .wait _, desk => (.ok 0, desk)
  | .tryWait _, desk => (.ok (some 0), desk)
  | .changeDirectory _, desk => (.ok (), desk)
  | .processId, desk => (1, desk)
  | .report .., desk => ((), desk)

/-- A system whose processes have desks of their own. -/
def host : Host Desk where
  answer := answer
  exec _ _ desk := (.ok 0, desk)
  fork desk := (.ok 2, desk)
  join parent _ _ _ := parent
  note _ desk := desk

theorem table_put (desk : Desk) (fd : Descriptor) (file : Option OpenFile) :
    (desk.put fd file).table = desk.table.set fd file := by
  funext other
  rcases file with _ | file
  · by_cases ho : other = fd
    · subst ho
      simp [table, put]
    · simp [table, put, ho, AList.lookup_erase_ne ho]
  · by_cases ho : other = fd
    · subst ho
      simp [table, put]
    · simp [table, put, ho, AList.lookup_insert_ne ho]

theorem free_of_free? {desk : Desk} {fd : Descriptor} (h : desk.free? = some fd) :
    desk.table fd = none := by
  simpa using List.find?_some h

theorem lacks_of_pipe? {desk : Desk} {id : Nat} (h : desk.pipe? = some id) :
    desk.table.Lacks id := by
  have hall := List.find?_some h
  simp only [List.all_eq_true] at hall
  intro fd
  constructor <;> intro hfd <;> have := hall _ (AList.mem_lookup_iff.1 hfd) <;> simp at this

theorem makePipe_after (desk : Desk) :
    desk.table.After .pipe desk.makePipe.1 desk.makePipe.2.table := by
  unfold makePipe
  split
  · rename_i readEnd id hr hid
    dsimp only
    split
    · rename_i writeEnd hw
      have hread := free_of_free? hr
      have hwrite := free_of_free? hw
      rw [table_put] at hwrite
      have hne : readEnd ≠ writeEnd := by
        rintro rfl
        simp at hwrite
      rw [Table.set_other _ _ hne.symm] at hwrite
      exact ⟨⟨hne, hread, hwrite⟩, id, lacks_of_pipe? hid, by rw [table_put, table_put]; rfl⟩
    · trivial
  · trivial

theorem host_keeps : host.Keeps table where
  answer request desk := by
    cases request with
    | pipe => exact makePipe_after desk
    | duplicate source target =>
      simp only [host, answer]
      split
      · exact table_put ..
      · trivial
    | close fd =>
      simp only [host, answer]
      split
      · exact table_put ..
      · trivial
    | openFile path flags =>
      simp only [host, answer]
      split
      · exact ⟨free_of_free? ‹_›, table_put ..⟩
      · trivial
    | read | write | wait | tryWait | changeDirectory | processId | report => rfl
  fork _ := rfl
  join _ _ _ _ := rfl
  note _ _ := rfl

end Desk

end TinyShell
