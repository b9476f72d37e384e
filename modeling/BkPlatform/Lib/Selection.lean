import Mathlib.Data.List.Basic

/-!
# Statements that select elements

A statement with a condition goes through the elements of a list and drops, or changes, those
that meet it.  It is meant for one of them, which is given by its position.

## Main definitions

* `Only p l i` — the condition selects what is at position `i`, and nothing else.

## Main results

* `filter_not_eq_eraseIdx_iff` — **when dropping is dropping that element.**
* `map_ite_eq_modify` — then changing is changing it.
* `only_of_injective` — a condition on a value that no two elements have in common.
-/

namespace Selection

variable {α : Type*} {p : α → Bool} {l : List α} {a : α} {i : ℕ}

/-- What is at position `i` is selected, and nothing else. -/
def Only (p : α → Bool) (l : List α) (i : ℕ) : Prop :=
  ∀ j a, l[j]? = some a → (p a = true ↔ j = i)

theorem only_cons_zero : Only p (a :: l) 0 ↔ p a = true ∧ ∀ b ∈ l, p b = false := by
  constructor
  · intro h
    refine ⟨(h 0 a rfl).mpr rfl, fun b hb => ?_⟩
    obtain ⟨j, hj⟩ := List.mem_iff_getElem?.mp hb
    rw [← Bool.not_eq_true, h (j + 1) b hj]
    exact Nat.succ_ne_zero j
  · rintro ⟨ha, hl⟩ j b hb
    cases j with
    | zero => exact iff_of_true (Option.some.inj hb ▸ ha) rfl
    | succ j =>
      have hmem : b ∈ l := List.mem_of_getElem? hb
      exact iff_of_false (by simp [hl b hmem]) (Nat.succ_ne_zero j)

theorem only_cons_succ : Only p (a :: l) (i + 1) ↔ p a = false ∧ Only p l i := by
  constructor
  · intro h
    refine ⟨?_, fun j b hb => ?_⟩
    · rw [← Bool.not_eq_true, h 0 a rfl]
      exact (Nat.succ_ne_zero i).symm
    · rw [h (j + 1) b hb, Nat.add_right_cancel_iff]
  · rintro ⟨ha, hl⟩ j b hb
    cases j with
    | zero =>
      obtain rfl := Option.some.inj hb
      exact iff_of_false (by simp [ha]) (Nat.succ_ne_zero i).symm
    | succ j => rw [hl j b hb, Nat.add_right_cancel_iff]

/-- Dropping something of the rest does not drop the first element. -/
theorem cons_filter_ne (ha : p a = false) : a :: l.filter (fun b => !p b) ≠ l := by
  induction l generalizing a with
  | nil => exact List.cons_ne_nil _ _
  | cons b l ih =>
    intro h
    obtain ⟨rfl, hrest⟩ := List.cons.inj h
    rw [List.filter_cons_of_pos (by simp [ha])] at hrest
    exact ih ha hrest

/-- **When dropping is dropping the element at position `i`.** -/
theorem filter_not_eq_eraseIdx_iff (hi : i < l.length) :
    l.filter (fun a => !p a) = l.eraseIdx i ↔ Only p l i := by
  induction l generalizing i with
  | nil => exact absurd hi (Nat.not_lt_zero _)
  | cons a l ih =>
    cases i with
    | zero =>
      rw [only_cons_zero, List.eraseIdx_cons_zero]
      cases ha : p a with
      | true => simp [ha]
      | false =>
        rw [List.filter_cons_of_pos (by simp [ha])]
        exact iff_of_false (cons_filter_ne ha) fun h => Bool.false_ne_true h.1
    | succ i =>
      rw [only_cons_succ, List.eraseIdx_cons_succ]
      cases ha : p a with
      | true =>
        refine iff_of_false (fun h => ?_) fun h => Bool.false_ne_true h.1.symm
        have hmem : a ∈ (a :: l).filter fun b => !p b := h ▸ List.mem_cons_self
        simp [ha] at hmem
      | false =>
        rw [List.filter_cons_of_pos (by simp [ha]), List.cons_inj_right,
          ih (Nat.lt_of_succ_lt_succ hi)]
        simp

/-- **Then changing what is selected is changing that element.** -/
theorem map_ite_eq_modify (h : Only p l i) (f : α → α) :
    l.map (fun a => if p a then f a else a) = l.modify i f := by
  refine List.ext_getElem? fun j => ?_
  rw [List.getElem?_map, List.getElem?_modify]
  cases hj : l[j]? with
  | none => rfl
  | some a =>
    have hiff := h j a hj
    rcases eq_or_ne i j with rfl | hne
    · simp [hiff.mpr rfl]
    · have ha : p a = false := by
        rw [← Bool.not_eq_true, hiff]
        exact hne.symm
      simp [ha, hne]

/-- A value that no two elements have in common selects one of them. -/
theorem only_of_injective {β : Type*} {key : α → β} (hnodup : (l.map key).Nodup)
    (ha : l[i]? = some a) (hp : ∀ b ∈ l, p b = true ↔ key b = key a) : Only p l i := by
  intro j b hb
  rw [hp b (List.mem_of_getElem? hb)]
  constructor
  · intro heq
    have hjlt : j < l.length := List.getElem?_eq_some_iff.mp hb |>.1
    have hjmap : (l.map key)[j]? = some (key b) := by rw [List.getElem?_map, hb, Option.map_some]
    have himap : (l.map key)[i]? = some (key b) := by
      rw [List.getElem?_map, ha, Option.map_some, heq]
    exact (List.getElem?_inj (by simpa using hjlt) hnodup).mp (hjmap.trans himap.symm)
  · rintro rfl
    rw [Option.some.inj (hb.symm.trans ha)]

end Selection
