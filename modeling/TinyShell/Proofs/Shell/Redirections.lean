import TinyShell.Proofs.Shell.Desk

/-!
# The redirections of a command

`Child.applySlots_exact`: on a system that keeps descriptor tables, the redirections of a command
change just the descriptors that they are for, each to the file of its redirection. This holds from
every table, so also if the file of one redirection is opened under a number that another one is
for.

Each redirection to a file leaves the table with that file in its place (`applyAll_leaves`), so the
table in the end is `Table.redirected`, of which the lemmas here say what it holds.
-/

namespace TinyShell

variable {σ : Type}

namespace Table

/-- A descriptor that no redirection is for is left alone. -/
theorem redirected_other (table : Table) {redirections : List Redirection} {fd : Descriptor}
    (h : ∀ redirection ∈ redirections, redirection.isSet → redirection.source ≠ fd) :
    table.redirected redirections fd = table fd := by
  induction redirections generalizing table with
  | nil => rfl
  | cons redirection rest ih =>
    obtain ⟨hfirst, hrest⟩ := List.forall_mem_cons.1 h
    rw [redirected_cons, ih _ hrest]
    by_cases hset : redirection.isSet
    · exact override_other _ _ (hfirst hset).symm
    · rw [redirection.file?_of_not_isSet hset, override_none]

/-- A descriptor that one redirection is for gets its file, and keeps it. -/
theorem redirected_of_mem (table : Table) {redirections : List Redirection}
    (hd : (redirections.map Redirection.source).Nodup) {redirection : Redirection}
    (hm : redirection ∈ redirections) {path : String} (hset : redirection.isSet)
    (hp : redirection.path = some path) :
    table.redirected redirections redirection.source =
      some (.file path (Child.openFlags redirection.kind)) := by
  induction redirections generalizing table with
  | nil => cases hm
  | cons first rest ih =>
    rw [List.map_cons, List.nodup_cons] at hd
    rw [redirected_cons]
    rcases List.mem_cons.1 hm with rfl | hm
    · have hother : ∀ other ∈ rest, other.isSet → other.source ≠ redirection.source := by
        intro other ho _ heq
        exact hd.1 (List.mem_map.2 ⟨other, ho, heq⟩)
      rw [redirected_other _ hother, Redirection.file?, if_pos hset, hp, Option.map_some,
        override_some, set_same]
    · exact ih _ hd.2 hm

end Table

namespace Child

open TinyShell.Action (trace)

variable {host : Host σ} {table : σ → Table} (h : host.Keeps table) (bound : Nat)

include h

/-- If no call is refused, the descriptor of each redirection that is set stands for the file that
it names, opened in its own way, and every other descriptor for what it stood for before. -/
theorem applySlots_exact {slots : Slots} (hd : (slots.toList.map Redirection.source).Nodup)
    (hf : ∀ slot ∈ slots.toList, slot.ToFile) (state : σ)
    (hg : (trace host bound (applySlots slots) state).Granted) :
    ∃ after, (trace host bound (applySlots slots) state).result =
        some (.returned (.ok ()), after) ∧
      (∀ slot ∈ slots.toList, slot.isSet → ∃ path, slot.path = some path ∧
        table after slot.source = some (.file path (openFlags slot.kind))) ∧
      ∀ fd, (∀ slot ∈ slots.toList, slot.isSet → slot.source ≠ fd) →
        table after fd = table state fd := by
  obtain ⟨-, after, hresult, htable⟩ := applyAll_leaves h bound hf state hg
  refine ⟨after, hresult, fun slot hm hset => ?_, fun fd hother => ?_⟩
  · obtain ⟨path, hpath⟩ := Option.isSome_iff_exists.1 (hf slot hm hset).2
    rw [htable]
    exact ⟨path, hpath, Table.redirected_of_mem _ hd hm hset hpath⟩
  · rw [htable, Table.redirected_other _ hother]

omit h in
/-- Input and output are closed and redirected across. The file of the first redirection is opened
under the number that the second one is for, and that of the second one in its place at once. -/
theorem applySlots_exact_closed :
    let slots : Slots := { input := .toPath 1 .input "in", output := .toPath 0 .output "out",
                           error := .toPath 2 .append "log" }
    let desk : Desk := ⟨List.toAList [⟨2, .other 0⟩, ⟨3, .other 1⟩]⟩
    let run := trace Desk.host 0 (applySlots slots) desk
    Desk.host.Keeps Desk.table ∧ (slots.toList.map Redirection.source).Nodup ∧
      (∀ slot ∈ slots.toList, slot.ToFile) ∧ run.Granted ∧
      ∃ after, run.result = some (.returned (.ok ()), after) ∧
        (∀ slot ∈ slots.toList, slot.isSet → ∃ path, slot.path = some path ∧
          after.table slot.source = some (.file path (openFlags slot.kind))) ∧
        ∀ fd, (∀ slot ∈ slots.toList, slot.isSet → slot.source ≠ fd) →
          after.table fd = desk.table fd := by
  intro slots desk run
  have hd : (slots.toList.map Redirection.source).Nodup := by decide
  have hf : ∀ slot ∈ slots.toList, slot.ToFile := by
    simp [slots, Slots.toList, Redirection.ToFile, Redirection.toPath]
  have hg : run.Granted := by
    have : run.moves.all Move.granted = true := by decide +kernel
    exact List.all_eq_true.1 this
  exact ⟨Desk.host_keeps, hd, hf, hg, applySlots_exact Desk.host_keeps 0 hd hf desk hg⟩

end Child

end TinyShell
