import Mathlib.Data.List.Infix

/-!
# The first occurrence of a word

A word that occurs in a list occurs somewhere for the first time, and no part of it stands
there earlier.

## Main definitions

* `Occurrence.First w a` — behind `a` the word `w` stands for the first time.

## Main results

* `Occurrence.exists_first` — **a word that occurs has a first occurrence.**
* `Occurrence.First.not_prefix` — the word does not begin before it.
-/

namespace Occurrence

variable {α : Type} {w a b : List α} {c : α}

/-- Behind `a` the word stands for the first time: in `a ++ w` it stands at the end only. -/
def First (w a : List α) : Prop := ∀ x y, a ++ w = x ++ w ++ y → y = []

theorem first_nil : First w [] := by
  intro x y h
  have hlength := congrArg List.length h
  simp only [List.length_append, List.length_nil] at hlength
  exact List.length_eq_zero_iff.mp (by omega)

theorem First.tail (h : First w (c :: a)) : First w a := by
  intro x y hxy
  refine h (c :: x) y ?_
  rw [List.cons_append, hxy]
  rfl

/-- The word does not begin before its first occurrence. -/
theorem First.not_prefix (h : First w (c :: a)) : ¬ w <+: (c :: a) ++ w ++ b := by
  intro hprefix
  have hshort : w <+: (c :: a) ++ w :=
    List.prefix_of_prefix_length_le hprefix (List.prefix_append _ _) (by simp; omega)
  obtain ⟨y, hy⟩ := hshort
  have hlength := congrArg List.length hy
  have hnil : y = [] := h [] y (by rw [List.nil_append, hy])
  simp only [hnil, List.length_append, List.length_cons, List.length_nil] at hlength
  omega

/-- **A word that occurs has a first occurrence.** -/
theorem exists_first {cs : List α} (h : w <:+: cs) : ∃ a b, cs = a ++ w ++ b ∧ First w a := by
  induction cs with
  | nil =>
    obtain rfl := List.infix_nil.mp h
    exact ⟨[], [], rfl, first_nil⟩
  | cons c cs ih =>
    by_cases hprefix : w <+: c :: cs
    · obtain ⟨b, hb⟩ := hprefix
      exact ⟨[], b, hb.symm, first_nil⟩
    · rcases List.infix_cons_iff.mp h with hhere | hlater
      · exact absurd hhere hprefix
      · obtain ⟨a, b, rfl, hfirst⟩ := ih hlater
        refine ⟨c :: a, b, rfl, fun x y hxy => ?_⟩
        cases x with
        | nil =>
          -- the word would stand at the front
          refine absurd ?_ hprefix
          rw [List.nil_append] at hxy
          refine ⟨y ++ b, ?_⟩
          rw [← List.append_assoc, ← hxy]
          rfl
        | cons x xs =>
          obtain ⟨-, hrest⟩ := List.cons.inj hxy
          exact hfirst xs y hrest

/-- Behind a list without the word, and a symbol that is not in it, the word stands for the
first time. -/
theorem first_append_sep {sep : α} (hsep : sep ∉ w) (h : ¬ w <:+: a) : First w (a ++ [sep]) := by
  intro x y hxy
  have hsplit : a ++ (sep :: w) = x ++ (w ++ y) := by simpa using hxy
  rcases List.append_eq_append_iff.mp hsplit with ⟨d, rfl, hd⟩ | ⟨d, rfl, hd⟩
  · -- it begins behind `a`: with the symbol, or behind it
    cases d with
    | nil =>
      cases w with
      | nil => exact absurd (List.nil_infix) h
      | cons v vs => exact absurd ((List.cons.inj hd).1 ▸ List.mem_cons_self) hsep
    | cons c d =>
      have hlength := congrArg List.length hd
      simp only [List.length_cons, List.length_append] at hlength
      exact List.length_eq_zero_iff.mp (by omega)
  · -- it begins in `a`, and cannot go beyond the symbol
    rcases List.append_eq_append_iff.mp hd with ⟨e, rfl, he⟩ | ⟨e, rfl, he⟩
    · exact absurd ⟨x, e, by simp⟩ h
    · cases e with
      | nil => exact absurd ⟨x, [], by simp⟩ h
      | cons c e =>
        obtain ⟨rfl, -⟩ := List.cons.inj he
        exact absurd (List.mem_append_right _ List.mem_cons_self) hsep

/-- A word does not begin in a list without it, in front of a symbol that is not in it. -/
theorem not_prefix_append {b : List α} (hw : w ≠ []) (h : ¬ w <:+: a)
    (hb : ∀ c ∈ b.head?, c ∉ w) : ∀ s, s <:+ a → ¬ w <+: s ++ b := by
  rintro s hs ⟨y, hy⟩
  rcases List.append_eq_append_iff.mp hy with ⟨d, rfl, -⟩ | ⟨d, rfl, hd⟩
  · exact h ((List.prefix_append w d).isInfix.trans hs.isInfix)
  · cases d with
    | nil =>
      rw [List.append_nil] at h
      exact h hs.isInfix
    | cons c d =>
      refine hb c ?_ (List.mem_append_right _ List.mem_cons_self)
      rw [hd]
      rfl

end Occurrence
