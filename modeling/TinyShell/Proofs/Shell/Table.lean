import Mathlib.Logic.Function.Basic
import TinyShell.Proofs.Action.Ledger
import TinyShell.Proofs.Command.WellFormed

/-!
# Descriptor tables

The calls on descriptors as what they do to the table of a process: which open file each descriptor
stands for. `Host.Keeps` says that a system keeps such tables: new descriptors are any that are not
in use, a child starts with a copy of its parent's table, and no other call changes one.

The lemmas follow the functions of a child. Each says which table a run leaves that was granted
its calls (`Run.Leaves`): `redirect_leaves`, `redirectToFile_leaves`, `applySlots_leaves`,
`wire_leaves`, `closePipes_leaves`.
-/

namespace TinyShell

variable {σ α β : Type}

/-- What a descriptor can stand for. Each end of each pipe is a file of its own. -/
inductive OpenFile where
  | readEnd (pipe : Nat)
  | writeEnd (pipe : Nat)
  | file (path : String) (flags : OpenFlags)
  /-- Any other file that was open before. -/
  | other (name : Nat)
  deriving DecidableEq

/-- The open file of each descriptor that is in use. -/
abbrev Table := Descriptor → Option OpenFile

namespace Table

/-- No descriptor stands for an end of this pipe. -/
def Lacks (table : Table) (pipe : Nat) : Prop :=
  ∀ fd, table fd ≠ some (.readEnd pipe) ∧ table fd ≠ some (.writeEnd pipe)

/-- The table with one descriptor changed. -/
def set (table : Table) (fd : Descriptor) (file : Option OpenFile) : Table :=
  Function.update table fd file

@[simp]
theorem set_same (table : Table) (fd : Descriptor) (file : Option OpenFile) :
    table.set fd file fd = file := Function.update_self ..

@[simp]
theorem set_other (table : Table) {fd other : Descriptor} (file : Option OpenFile)
    (h : other ≠ fd) : table.set fd file other = table other := Function.update_of_ne h ..

theorem set_eq_self (table : Table) (fd : Descriptor) : table.set fd (table fd) = table :=
  Function.update_eq_self ..

/-- The table with a file in the place of a descriptor, if there is one. -/
def override (table : Table) (fd : Descriptor) (file : Option OpenFile) : Table :=
  fun other => if other = fd then file.or (table other) else table other

@[simp]
theorem override_none (table : Table) (fd : Descriptor) : table.override fd none = table := by
  funext other
  simp [override]

theorem override_some (table : Table) (fd : Descriptor) (file : OpenFile) :
    table.override fd (some file) = table.set fd (some file) := by
  funext other
  by_cases h : other = fd
  · subst h
    simp [override]
  · simp [override, h]

@[simp]
theorem override_other (table : Table) {fd other : Descriptor} (file : Option OpenFile)
    (h : other ≠ fd) : table.override fd file other = table other := if_neg h

/-- The table in which these descriptors are not in use. -/
def without (table : Table) (fds : List Descriptor) : Table :=
  fun fd => if fd ∈ fds then none else table fd

@[simp]
theorem without_nil (table : Table) : table.without [] = table := by
  funext fd
  simp [without]

theorem without_cons (table : Table) (fd : Descriptor) (rest : List Descriptor) :
    table.without (fd :: rest) = (table.set fd none).without rest := by
  funext other
  by_cases h : other = fd
  · subst h
    simp [without]
  · simp [without, h]

/-- The ends of the pipe are two descriptors that are not in use. -/
structure Fits (table : Table) (pipe : Pipe) : Prop where
  ne : pipe.readEnd ≠ pipe.writeEnd
  readEnd : table pipe.readEnd = none
  writeEnd : table pipe.writeEnd = none

/-- The table with both ends of a pipe. -/
def withPipe (table : Table) (pipe : Pipe) (id : Nat) : Table :=
  (table.set pipe.readEnd (some (.readEnd id))).set pipe.writeEnd (some (.writeEnd id))

section
variable {table : Table} {pipe : Pipe} {id : Nat}

theorem withPipe_readEnd (h : table.Fits pipe) :
    table.withPipe pipe id pipe.readEnd = some (.readEnd id) := by
  rw [withPipe, set_other _ _ h.ne, set_same]

theorem withPipe_writeEnd : table.withPipe pipe id pipe.writeEnd = some (.writeEnd id) :=
  set_same ..

theorem withPipe_other {fd : Descriptor} (hr : fd ≠ pipe.readEnd) (hw : fd ≠ pipe.writeEnd) :
    table.withPipe pipe id fd = table fd := by
  rw [withPipe, set_other _ _ hw, set_other _ _ hr]

/-- What is free beside a pipe was free before it. -/
theorem Fits.free (h : table.Fits pipe) {fd : Descriptor}
    (hfd : table.withPipe pipe id fd = none) : table fd = none := by
  by_cases hr : fd = pipe.readEnd
  · rw [hr, h.readEnd]
  by_cases hw : fd = pipe.writeEnd
  · rw [hw, h.writeEnd]
  rwa [withPipe_other hr hw] at hfd

theorem Fits.lacks (h : table.Fits pipe) {other : Nat}
    (hl : (table.withPipe pipe id).Lacks other) : table.Lacks other := by
  intro fd
  by_cases hr : fd = pipe.readEnd
  · simp [hr, h.readEnd]
  by_cases hw : fd = pipe.writeEnd
  · simp [hw, h.writeEnd]
  have := hl fd
  rwa [withPipe_other hr hw] at this

end

/-- The tables that a call which was granted may leave. Nothing is said of one that failed. -/
def After (table : Table) : (request : Request) → request.Reply → Table → Prop
  | .pipe, .ok pipe, after =>
    table.Fits pipe ∧ ∃ id, table.Lacks id ∧ after = table.withPipe pipe id
  | .duplicate source target, .ok (), after => after = table.set target (table source)
  | .close fd, .ok (), after => after = table.set fd none
  | .openFile path flags, .ok fd, after =>
    table fd = none ∧ after = table.set fd (some (.file path flags))
  | .pipe, .error _, _ | .duplicate .., .error _, _ | .close _, .error _, _
  | .openFile .., .error _, _ => True
  | _, _, after => after = table

end Table

/-- A system that keeps a table for each process. -/
structure Host.Keeps (host : Host σ) (table : σ → Table) : Prop where
  answer : ∀ request state, (table state).After request (host.answer request state).1
    (table (host.answer request state).2)
  fork : ∀ state, table (host.fork state).2 = table state
  join : ∀ parent child pid status, table (host.join parent child pid status) = table parent
  note : ∀ text state, table (host.note text state) = table state

/-- Whether a call that tables depend on was granted; for other calls it does not matter. -/
def Move.granted : Move σ → Bool
  | .asked _ .pipe reply => reply.isOk
  | .asked _ (.duplicate ..) reply => reply.isOk
  | .asked _ (.close _) reply => reply.isOk
  | .asked _ (.openFile ..) reply => reply.isOk
  | .forked _ result _ => result.isOk
  | _ => true

/-- No child was refused. -/
theorem Ledger.forks_granted {moves : List (Move σ)} (h : ∀ move ∈ moves, move.granted) :
    ∀ fork ∈ (Ledger.of moves).forks, fork.result.isOk := fun _ hf => h _ (forked_of_mem hf)

namespace Run

/-- A run whose calls were granted. -/
def Granted (run : Run σ α) : Prop := ∀ move ∈ run.moves, move.granted

theorem Granted.of_after {run : Run σ α} {earlier : List (Move σ)}
    (h : (run.after earlier).Granted) : (∀ move ∈ earlier, move.granted) ∧ run.Granted :=
  ⟨fun move hm => h move (List.mem_append_left _ hm),
    fun move hm => h move (List.mem_append_right _ hm)⟩

theorem Granted.of_bind {run : Run σ α} {next : α → σ → Run σ β} (h : (run.bind next).Granted) :
    run.Granted := by
  intro move hm
  refine h move ?_
  rcases hr : run.result with _ | ⟨value | status, state⟩ <;> simp [bind, hr, hm]

/-- If its calls were granted, the run became no program, returned this value and left this
table. -/
def Leaves (table : σ → Table) (run : Run σ α) (value : α) (after : Table) : Prop :=
  run.Granted → (Ledger.of run.moves).executions = [] ∧
    ∃ state, run.result = some (.returned value, state) ∧ table state = after

namespace Leaves

variable {table : σ → Table} {run : Run σ α} {value : α} {between : Table}

theorem pure {state : σ} : (Run.pure value state).Leaves table value (table state) :=
  fun _ => ⟨rfl, state, rfl, rfl⟩

/-- The sequel of a granted run, from the table that it left. -/
theorem sequel {next : α → σ → Run σ β} (h : run.Leaves table value between)
    (hg : (run.bind next).Granted) :
    ∃ state, table state = between ∧ run.bind next = (next value state).after run.moves ∧
      (next value state).Granted ∧ (Ledger.of run.moves).executions = [] := by
  obtain ⟨he, state, hr, ht⟩ := h hg.of_bind
  rw [bind_of_returned hr] at hg
  exact ⟨state, ht, bind_of_returned hr next, hg.of_after.2, he⟩

theorem bind {next : α → σ → Run σ β} {value' : β} {after : Table}
    (h : run.Leaves table value between)
    (hn : ∀ state, table state = between → (next value state).Leaves table value' after) :
    (run.bind next).Leaves table value' after := by
  intro hg
  obtain ⟨state, ht, hb, hgn, he⟩ := h.sequel hg
  obtain ⟨he', state', hr, ht'⟩ := hn state ht hgn
  rw [hb]
  exact ⟨by simp [he, he'], state', hr, ht'⟩

end Leaves

/-- If its calls were granted, the run called for one program, as `post` says. -/
def Executes (run : Run σ α) (post : Execution σ → Prop) : Prop :=
  run.Granted → ∃ execution, (Ledger.of run.moves).executions = [execution] ∧ post execution

theorem Leaves.executes {table : σ → Table} {run : Run σ α} {value : α} {between : Table}
    {next : α → σ → Run σ β} {post : Execution σ → Prop} (h : run.Leaves table value between)
    (hn : ∀ state, table state = between → (next value state).Executes post) :
    (run.bind next).Executes post := by
  intro hg
  obtain ⟨state, ht, hb, hgn, he⟩ := h.sequel hg
  obtain ⟨execution, he', hp⟩ := hn state ht hgn
  rw [hb]
  exact ⟨execution, by simp [he, he'], hp⟩

end Run

/-! ## Children -/

/-- The file that a redirection asks for, if it is set. -/
def Redirection.file? (redirection : Redirection) : Option OpenFile :=
  if redirection.isSet then
    redirection.path.map fun path => .file path (Child.openFlags redirection.kind)
  else .none

theorem Redirection.file?_of_not_isSet (redirection : Redirection) (h : ¬redirection.isSet) :
    redirection.file? = .none := if_neg h

/-- If it is set at all, it is set to a file. -/
def Redirection.ToFile (redirection : Redirection) : Prop :=
  redirection.isSet → redirection.target = .none ∧ redirection.path.isSome

theorem Redirection.Shaped.toFile {redirection : Redirection} {fd : Descriptor}
    {kinds : List RedirKind} (h : redirection.Shaped fd kinds) : redirection.ToFile :=
  fun hset => ⟨h.target, h.path.2 (by simpa [isSet] using hset)⟩

theorem Slots.Shaped.toFile {slots : Slots} (h : slots.Shaped) :
    ∀ slot ∈ slots.toList, slot.ToFile := by
  simp only [Slots.toList, List.forall_mem_cons]
  exact ⟨h.input.toFile, h.output.toFile, h.error.toFile, by simp⟩

namespace Table

/-- The table with the files of redirections in their places. -/
def redirected (table : Table) (redirections : List Redirection) : Table :=
  redirections.foldl (fun table redirection => table.override redirection.source redirection.file?)
    table

@[simp]
theorem redirected_nil (table : Table) : table.redirected [] = table := rfl

theorem redirected_cons (table : Table) (redirection : Redirection) (rest : List Redirection) :
    table.redirected (redirection :: rest) =
      (table.override redirection.source redirection.file?).redirected rest := rfl

end Table

namespace Child

open TinyShell.Action (trace)

variable {host : Host σ} {table : σ → Table} (h : host.Keeps table) (bound : Nat)

include h

/-- A granted call, and what comes after it. -/
theorem call_leaves {request : Request} {next : request.Reply → Action α} {state : σ} {value : α}
    {after : Table} (hr : ∀ reply, (Move.asked state request reply).granted →
      ∀ state', (table state).After request reply (table state') →
        (trace host bound (next reply) state').Leaves table value after) :
    (trace host bound (Action.call request >>= next) state).Leaves table value after := by
  intro hg
  rw [Action.trace_call_bind] at hg ⊢
  obtain ⟨hm, hg⟩ := hg.of_after
  obtain ⟨he, state', hres, ht⟩ := hr _ (hm _ List.mem_cons_self) _ (h.answer request state) hg
  refine ⟨?_, state', hres, ht⟩
  cases request <;> simpa [Ledger.of_cons, Ledger.entry] using he

theorem redirect_leaves (fd target : Descriptor) (state : σ) :
    (trace host bound (redirect fd target) state).Leaves table (.ok ())
      ((table state).set target (table state fd)) := by
  unfold redirect
  split
  · rename_i heq
    rw [heq, Table.set_eq_self]
    exact .pure
  · refine call_leaves h bound fun reply hok state' ha => ?_
    rcases reply with errno | _
    · cases hok
    · rw [← show table state' = (table state).set target (table state fd) from ha]
      exact .pure

/-- A file is opened under some free descriptor and moved to its place. -/
theorem redirectToFile_leaves (source : Descriptor) (path : String) (kind : RedirKind)
    (state : σ) : (trace host bound (redirectToFile source path kind) state).Leaves table (.ok ())
      ((table state).set source (some (.file path (openFlags kind)))) := by
  refine call_leaves h bound fun reply hok state₁ ha => ?_
  rcases reply with errno | fd
  · cases hok
  obtain ⟨hfree, ht₁⟩ := ha
  simp only
  split
  · rename_i heq
    subst heq
    rw [← ht₁]
    exact .pure
  · rename_i hne
    rw [Action.trace_bind]
    refine (redirect_leaves h bound fd source state₁).bind fun state₂ ht₂ => ?_
    refine call_leaves h bound fun reply hok state₃ ht₃ => ?_
    rcases reply with errno | _
    · cases hok
    have : table state₃ = (table state).set source (some (.file path (openFlags kind))) := by
      rw [show table state₃ = (table state₂).set fd none from ht₃, ht₂, ht₁]
      -- the descriptor of the opening was free before, and is so again
      funext other
      by_cases h1 : other = fd
      · subst h1
        simp [hne, hfree]
      · by_cases h2 : other = source
        · subst h2
          simp [h1]
        · simp [h1, h2]
    rw [← this]
    exact .pure

theorem applyOne_leaves {redirection : Redirection} (hset : redirection.isSet)
    (hf : redirection.ToFile) (state : σ) :
    (trace host bound (applyOne redirection) state).Leaves table (.ok ())
      ((table state).override redirection.source redirection.file?) := by
  obtain ⟨htarget, hpath⟩ := hf hset
  obtain ⟨path, hpath⟩ := Option.isSome_iff_exists.1 hpath
  rw [Redirection.file?, if_pos hset, hpath, Option.map_some, Table.override_some]
  simp only [applyOne, htarget, hpath]
  exact redirectToFile_leaves h bound _ path _ state

/-- Redirections to files put them in their places, one after the other. -/
theorem applyAll_leaves {redirections : List Redirection}
    (hf : ∀ redirection ∈ redirections, redirection.ToFile) (state : σ) :
    (trace host bound (applyAll (redirections.filter Redirection.isSet)) state).Leaves table
      (.ok ()) ((table state).redirected redirections) := by
  induction redirections generalizing state with
  | nil => exact .pure
  | cons redirection rest ih =>
    obtain ⟨hfirst, hrest⟩ := List.forall_mem_cons.1 hf
    rw [Table.redirected_cons]
    by_cases hset : redirection.isSet
    · rw [List.filter_cons_of_pos hset, applyAll, Action.trace_bind]
      refine (applyOne_leaves h bound hset hfirst state).bind fun state' ht => ?_
      rw [← ht]
      exact ih hrest state'
    · rw [List.filter_cons_of_neg hset, redirection.file?_of_not_isSet hset, Table.override_none]
      exact ih hrest state

/-- The slots of a command put their files in the place of input and output. -/
theorem applySlots_leaves {slots : Slots} (hs : slots.Shaped) (state : σ) :
    (trace host bound (applySlots slots) state).Leaves table (.ok ())
      (((table state).override .input slots.input.file?).override .output
        slots.output.file?) := by
  have hunset : slots.error.isSet = false := by
    have : slots.error.kind = .unset := by simpa using hs.error.kind
    simp [Redirection.isSet, this]
  have hslots := applyAll_leaves h bound hs.toFile state
  simp only [Slots.toList, Table.redirected_cons, Table.redirected_nil, hs.input.source,
    hs.output.source, slots.error.file?_of_not_isSet (by simp [hunset]), Table.override_none]
    at hslots
  exact hslots

/-- The end of a pipe is put in the place of a descriptor, if there is such a pipe. -/
theorem wire_leaves {fd : Option Descriptor} {file : Option OpenFile} {state : σ}
    (hf : fd.map (table state) = file.map some) (target : Descriptor) :
    (trace host bound (wire fd target) state).Leaves table (.ok ())
      ((table state).override target file) := by
  rcases fd with _ | fd
  · obtain rfl : file = none := by simpa using hf.symm
    rw [Table.override_none]
    exact .pure
  · obtain ⟨file, rfl, hfd⟩ : ∃ end_, file = some end_ ∧ table state fd = some end_ := by
      rcases file with _ | file <;> simp_all
    rw [Table.override_some, ← hfd]
    exact redirect_leaves h bound fd target state

theorem closePipes_leaves (pipes : List Pipe) (state : σ) :
    (trace host bound (closePipes pipes) state).Leaves table ()
      ((table state).without (Pipe.ends pipes)) := by
  induction pipes generalizing state with
  | nil =>
    rw [Pipe.ends_nil, Table.without_nil]
    exact .pure
  | cons pipe rest ih =>
    rw [Pipe.ends_cons, Table.without_cons, Table.without_cons]
    refine call_leaves h bound fun reply hok state₁ ht₁ => ?_
    rcases reply with errno | _
    · cases hok
    refine call_leaves h bound fun reply hok state₂ ht₂ => ?_
    rcases reply with errno | _
    · cases hok
    rw [← show table state₁ = (table state).set pipe.readEnd none from ht₁,
      ← show table state₂ = (table state₁).set pipe.writeEnd none from ht₂]
    exact ih state₂

end Child

end TinyShell
