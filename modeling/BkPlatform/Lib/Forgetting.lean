import Mathlib.Data.List.Basic

/-!
# Rows that are forgotten

A finder chooses the row to look at; a row that is found is marked.  Some rows are dead: they
are of no use to whoever finds them, now and later.  Dead rows can be thrown away, and
nobody notices: what is found otherwise is found all the same, and marking what one has found
keeps the two stores alike.

## Main definitions

* `Forgets Dead full kept` — only dead rows are missing.
* `Chooses p rows` — the finder has nothing to choose from.
* `marked mark found rows` — the row found is marked.

## Main results

* `Forgets.find?_eq_or` — what is found where rows are missing.
* `Forgets.answer_eq` — **nobody notices.**
* `Forgets.marked` — and nobody will.
-/

namespace Forgetting

variable {ρ : Type*} {Dead : ρ → Prop} {full kept : List ρ} {p : ρ → Bool}

/-- Of the rows `full` only dead ones are missing. -/
structure Forgets (Dead : ρ → Prop) (full kept : List ρ) : Prop where
  subset : ∀ row ∈ kept, row ∈ full
  dead : ∀ row ∈ full, row ∉ kept → Dead row

/-- There is one row to choose at most. -/
def Chooses (p : ρ → Bool) (rows : List ρ) : Prop :=
  ∀ row ∈ rows, ∀ row' ∈ rows, p row = true → p row' = true → row = row'

/-- The row found is marked; `mark found` is the change of every row. -/
def marked (mark : ρ → ρ → ρ) (found : Option ρ) (rows : List ρ) : List ρ :=
  match found with
  | none => rows
  | some row => rows.map (mark row)

theorem Forgets.refl : Forgets Dead full full := ⟨fun _ h => h, fun _ h hnot => absurd h hnot⟩

/-- Dead rows are thrown away. -/
theorem Forgets.filter {keep : ρ → Bool} (h : ∀ row ∈ full, keep row = false → Dead row) :
    Forgets Dead full (full.filter keep) where
  subset := fun _ hrow => (List.mem_filter.mp hrow).1
  dead := by
    intro row hrow hnot
    apply h row hrow
    rw [← Bool.not_eq_true]
    exact fun hkeep => hnot (List.mem_filter.mpr ⟨hrow, hkeep⟩)

/-- A row that is to be chosen is found. -/
theorem Chooses.find?_eq (h : Chooses p full) {row : ρ} (hrow : row ∈ full) (hp : p row = true) :
    full.find? p = some row := by
  cases hfind : full.find? p with
  | none => exact absurd hp (List.find?_eq_none.mp hfind row hrow)
  | some row' =>
    rw [h row' (List.mem_of_find?_eq_some hfind) row hrow (List.find?_some hfind) hp]

/-- What is found where rows are missing: the same row, or none in place of a dead one. -/
theorem Forgets.find?_eq_or (h : Forgets Dead full kept) (hchooses : Chooses p full) :
    kept.find? p = full.find? p ∨
      kept.find? p = none ∧ ∃ row ∈ full, full.find? p = some row ∧ row ∉ kept ∧ Dead row := by
  cases hkept : kept.find? p with
  | some row =>
    have hrow := h.subset row (List.mem_of_find?_eq_some hkept)
    exact Or.inl (hchooses.find?_eq hrow (List.find?_some hkept)).symm
  | none =>
    cases hfull : full.find? p with
    | none => exact Or.inl rfl
    | some row =>
      have hrow := List.mem_of_find?_eq_some hfull
      have hnot : row ∉ kept := fun hmem =>
        List.find?_eq_none.mp hkept row hmem (List.find?_some hfull)
      exact Or.inr ⟨rfl, row, hrow, rfl, hnot, h.dead row hrow hnot⟩

/-- **Nobody notices** that a dead row is missing, if it is of no more use than none. -/
theorem Forgets.answer_eq {α : Type*} (h : Forgets Dead full kept) (hchooses : Chooses p full)
    (answer : Option ρ → α) (hdead : ∀ row, Dead row → answer (some row) = answer none) :
    answer (kept.find? p) = answer (full.find? p) := by
  rcases h.find?_eq_or hchooses with heq | ⟨hnone, row, -, hsome, -, hrow⟩
  · rw [heq]
  · rw [hnone, hsome, hdead row hrow]

section Marked

variable {mark : ρ → ρ → ρ}

/-- Marking leaves the finders nothing to choose from, if it does not change what they look
for. -/
theorem Chooses.marked (h : Chooses p full) (hmark : ∀ found row, p (mark found row) = p row)
    (found : Option ρ) : Chooses p (marked mark found full) := by
  cases found with
  | none => exact h
  | some found =>
    intro row hrow row' hrow' hp hp'
    obtain ⟨old, hold, rfl⟩ := List.mem_map.mp hrow
    obtain ⟨old', hold', rfl⟩ := List.mem_map.mp hrow'
    rw [hmark] at hp hp'
    rw [h old hold old' hold' hp hp']

/-- **Nobody will notice**: whatever the finders find is marked, where it is still there. -/
theorem Forgets.marked (h : Forgets Dead full kept) (hchooses : Chooses p full)
    (hdead : ∀ found row, Dead row → Dead (mark found row))
    (hmark : ∀ found ∈ full, ∀ row ∈ full, row ≠ found → mark found row = row) :
    Forgets Dead (marked mark (full.find? p) full) (marked mark (kept.find? p) kept) := by
  rcases h.find?_eq_or hchooses with heq | ⟨hnone, found, hfound, hsome, hnot, -⟩
  · -- both are marked alike
    rw [heq]
    cases full.find? p with
    | none => exact h
    | some found =>
      refine ⟨fun row hrow => ?_, fun row hrow hnot => ?_⟩
      · obtain ⟨old, hold, rfl⟩ := List.mem_map.mp hrow
        exact List.mem_map_of_mem (h.subset old hold)
      · obtain ⟨old, hold, rfl⟩ := List.mem_map.mp hrow
        exact hdead found old (h.dead old hold fun hkept => hnot (List.mem_map_of_mem hkept))
  · -- a missing row is marked, which leaves the others as they are
    rw [hnone, hsome]
    refine ⟨fun row hrow => ?_, fun row hrow hrow' => ?_⟩
    · have hfull := h.subset row hrow
      have hsame := hmark found hfound row hfull fun heq => hnot (heq ▸ hrow)
      exact List.mem_map.mpr ⟨row, hfull, hsame⟩
    · obtain ⟨old, hold, rfl⟩ := List.mem_map.mp hrow
      by_cases hkept : old ∈ kept
      · have hsame := hmark found hfound old hold fun heq => hnot (heq ▸ hkept)
        exact absurd (hsame.symm ▸ hkept) hrow'
      · exact hdead found old (h.dead old hold hkept)

end Marked

end Forgetting
