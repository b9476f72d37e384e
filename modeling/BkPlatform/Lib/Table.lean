import Mathlib.Data.List.Nodup
import Mathlib.Data.Nat.Notation

/-!
# Tables with a counting key

A table of a relational database whose primary key counts up: a new row gets a
key no row has had before, so a key names at most one row, for ever.

## Main definitions

* `Table ρ key` — the rows, and the next key.
* `Table.insert`, `Table.modify`, `Table.keep` — the changes of a table.
* `Numbered` — what has ever been in a table: the keys it has handed out.

## Main results

* `Table.eq_of_key` — a key belongs to one row.
* `Table.perm_cons_keep` — deleting by key deletes that row alone.
* `Numbered.eq_of_key` — and did so at all times.
-/

variable {ρ : Type*} {key : ρ → ℕ}

/-- A table: the keys of its rows are distinct, and below the next key. -/
structure Table (ρ : Type*) (key : ρ → ℕ) where
  rows : List ρ
  nextId : ℕ
  nodup : (rows.map key).Nodup
  fresh : ∀ row ∈ rows, key row < nextId

namespace Table

/-- The empty table. -/
def empty : Table ρ key where
  rows := []
  nextId := 1
  nodup := List.nodup_nil
  fresh := fun _ hrow => absurd hrow List.not_mem_nil

/-- A new row, made with its key. -/
def insert (t : Table ρ key) (make : ℕ → ρ) (hmake : ∀ id, key (make id) = id) : Table ρ key where
  rows := t.rows ++ [make t.nextId]
  nextId := t.nextId + 1
  nodup := by
    rw [List.map_append, List.nodup_append]
    refine ⟨t.nodup, List.nodup_singleton _, fun id hid id' hid' => ?_⟩
    obtain ⟨row, hrow, rfl⟩ := List.mem_map.mp hid
    obtain rfl := List.mem_singleton.mp hid'
    rw [hmake]
    exact Nat.ne_of_lt (t.fresh row hrow)
  fresh := fun row hrow => by
    rcases List.mem_append.mp hrow with hold | hnew
    · exact Nat.lt_succ_of_lt (t.fresh row hold)
    · rw [List.mem_singleton.mp hnew, hmake]
      exact Nat.lt_succ_self _

/-- Rows are changed, but not their keys. -/
def modify (t : Table ρ key) (f : ρ → ρ) (hf : ∀ row, key (f row) = key row) : Table ρ key where
  rows := t.rows.map f
  nextId := t.nextId
  nodup := by
    have hkeys : (t.rows.map f).map key = t.rows.map key := by
      rw [List.map_map]
      exact List.map_congr_left fun row _ => hf row
    rw [hkeys]
    exact t.nodup
  fresh := fun row hrow => by
    obtain ⟨old, hold, rfl⟩ := List.mem_map.mp hrow
    rw [hf]
    exact t.fresh old hold

/-- The rows that satisfy `p`; the others are deleted. -/
def keep (t : Table ρ key) (p : ρ → Bool) : Table ρ key where
  rows := t.rows.filter p
  nextId := t.nextId
  nodup := t.nodup.sublist (List.filter_sublist.map _)
  fresh := fun row hrow => t.fresh row (List.mem_filter.mp hrow).1

/-- A table is its rows and its next key. -/
theorem eq_of_rows {t t' : Table ρ key} (hrows : t.rows = t'.rows) (hnext : t.nextId = t'.nextId) :
    t = t' := by
  cases t
  cases t'
  obtain rfl := hrows
  obtain rfl := hnext
  rfl

/-- Nothing is deleted exactly if every row is to be kept. -/
theorem keep_eq_iff {t : Table ρ key} {p : ρ → Bool} :
    t.keep p = t ↔ ∀ row ∈ t.rows, p row = true := by
  rw [← List.filter_eq_self]
  exact ⟨fun h => congrArg rows h, fun h => eq_of_rows h rfl⟩

@[simp] theorem rows_empty : (empty : Table ρ key).rows = [] := rfl

@[simp] theorem mem_insert {t : Table ρ key} {make : ℕ → ρ} {hmake : ∀ id, key (make id) = id}
    {row : ρ} : row ∈ (t.insert make hmake).rows ↔ row ∈ t.rows ∨ row = make t.nextId := by
  simp [insert]

@[simp] theorem mem_modify {t : Table ρ key} {f : ρ → ρ} {hf : ∀ row, key (f row) = key row}
    {row : ρ} : row ∈ (t.modify f hf).rows ↔ ∃ old ∈ t.rows, f old = row := by
  simp [modify]

@[simp] theorem mem_keep {t : Table ρ key} {p : ρ → Bool} {row : ρ} :
    row ∈ (t.keep p).rows ↔ row ∈ t.rows ∧ p row = true := by
  simp [keep]

/-- A key belongs to one row. -/
theorem eq_of_key (t : Table ρ key) {row row' : ρ} (hrow : row ∈ t.rows) (hrow' : row' ∈ t.rows)
    (hkey : key row = key row') : row = row' :=
  List.inj_on_of_nodup_map t.nodup hrow hrow' hkey

/-- Deleting the row of a key deletes that row alone. -/
theorem perm_cons_keep (t : Table ρ key) {row : ρ} (hrow : row ∈ t.rows) :
    t.rows.Perm (row :: (t.keep fun r => key r != key row).rows) := by
  classical
  have hrows : t.rows.Nodup := List.Nodup.of_map key t.nodup
  have hkeep : (t.keep fun r => key r != key row).rows = t.rows.erase row := by
    rw [hrows.erase_eq_filter]
    refine List.filter_congr fun r hr => ?_
    have hsame : key r = key row ↔ r = row := ⟨t.eq_of_key hr hrow, fun h => by rw [h]⟩
    rw [Bool.eq_iff_iff, bne_iff_ne, bne_iff_ne, ne_eq, ne_eq, hsame]
  rw [hkeep]
  exact List.perm_cons_erase hrow

/-- Deleting the row that has just been inserted leaves the table as it was. -/
theorem rows_keep_insert (t : Table ρ key) (make : ℕ → ρ) (hmake : ∀ id, key (make id) = id) :
    ((t.insert make hmake).keep fun r => key r != t.nextId).rows = t.rows := by
  show (t.rows ++ [make t.nextId]).filter (fun r => key r != t.nextId) = t.rows
  have hold : t.rows.filter (fun r => key r != t.nextId) = t.rows :=
    List.filter_eq_self.mpr fun r hr => bne_iff_ne.mpr (Nat.ne_of_lt (t.fresh r hr))
  rw [List.filter_append, hold]
  simp [hmake]

end Table

/-! ### All rows there have been -/

/-- Rows with distinct keys below `next`. -/
structure Numbered (key : ρ → ℕ) (next : ℕ) (rows : List ρ) : Prop where
  nodup : (rows.map key).Nodup
  fresh : ∀ row ∈ rows, key row < next

namespace Numbered

variable {next : ℕ} {rows : List ρ}

theorem nil : Numbered key next [] := ⟨List.nodup_nil, fun _ hrow => absurd hrow List.not_mem_nil⟩

/-- The row a table inserts is numbered next. -/
theorem snoc (h : Numbered key next rows) {row : ρ} (hkey : key row = next) :
    Numbered key (next + 1) (rows ++ [row]) where
  nodup := by
    rw [List.map_append, List.nodup_append]
    refine ⟨h.nodup, List.nodup_singleton _, fun id hid id' hid' => ?_⟩
    obtain ⟨old, hold, rfl⟩ := List.mem_map.mp hid
    obtain rfl := List.mem_singleton.mp hid'
    rw [hkey]
    exact Nat.ne_of_lt (h.fresh old hold)
  fresh := fun x hx => by
    rcases List.mem_append.mp hx with hold | hnew
    · exact Nat.lt_succ_of_lt (h.fresh x hold)
    · rw [List.mem_singleton.mp hnew, hkey]
      exact Nat.lt_succ_self next

theorem eq_of_key (h : Numbered key next rows) {row row' : ρ} (hrow : row ∈ rows)
    (hrow' : row' ∈ rows) (hkey : key row = key row') : row = row' :=
  List.inj_on_of_nodup_map h.nodup hrow hrow' hkey

end Numbered
