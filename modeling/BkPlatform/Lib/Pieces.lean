import Mathlib.Data.List.Basic
import Mathlib.Data.List.Infix

/-!
# Pieces between separators

A list is cut at a separator, and put together of pieces with the separator between them.
One list begins like another in its pieces exactly if it does so in its entries, apart from
the last piece: that one may be the beginning of a longer one.

## Main results

* `intercalate_append_cons` — what stands around a piece.
* `splitOn_intercalate_append` — the pieces of a list that goes on.
* `intercalate_prefix_iff` — when one list begins like another.
-/

namespace Pieces

variable {α : Type*} {sep : α} {piece : List α}

/-- A separator at the end stands before an empty piece. -/
theorem intercalate_append_nil {pieces : List (List α)} (hne : pieces ≠ []) :
    [sep].intercalate (pieces ++ [[]]) = [sep].intercalate pieces ++ [sep] := by
  induction pieces with
  | nil => exact absurd rfl hne
  | cons p ps ih =>
    cases ps with
    | nil => simp
    | cons q ps =>
      rw [List.intercalate_cons_cons, List.cons_append, List.cons_append,
        List.intercalate_cons_cons, ← List.cons_append, ih (List.cons_ne_nil q ps),
        ← List.append_assoc]

/-- One of the pieces, with what comes in front of it and behind it. -/
theorem intercalate_append_cons (between : List α) (front behind : List (List α)) :
    between.intercalate (front ++ piece :: behind) =
      (front.flatMap fun p => p ++ between) ++ (piece ++ behind.flatMap fun p => between ++ p) := by
  induction front with
  | nil =>
    rw [List.nil_append, List.flatMap_nil, List.nil_append]
    induction behind generalizing piece with
    | nil => simp
    | cons q behind ih =>
      rw [List.intercalate_cons_cons, ih, List.flatMap_cons]
      simp only [List.append_assoc]
  | cons p front ih =>
    rw [List.cons_append, List.intercalate_cons_of_ne_nil (by simp), ih, List.flatMap_cons]
    simp only [List.append_assoc]

/-- What is put together of pieces has no other entries. -/
theorem mem_intercalate {pieces : List (List α)} {a : α} (h : a ∈ [sep].intercalate pieces) :
    a = sep ∨ ∃ p ∈ pieces, a ∈ p := by
  induction pieces with
  | nil => cases h
  | cons p ps ih =>
    cases ps with
    | nil =>
      rw [List.intercalate_singleton] at h
      exact Or.inr ⟨p, List.mem_cons_self, h⟩
    | cons q ps =>
      rw [List.intercalate_cons_cons] at h
      rcases List.mem_append.mp h with h | h
      · rcases List.mem_append.mp h with h | h
        · exact Or.inr ⟨p, List.mem_cons_self, h⟩
        · exact Or.inl (List.mem_singleton.mp h)
      · rcases ih h with rfl | ⟨r, hr, h⟩
        · exact Or.inl rfl
        · exact Or.inr ⟨r, List.mem_cons_of_mem _ hr, h⟩

variable [BEq α]

/-- A piece has no entries but those of the list. -/
theorem subset_of_mem_splitOn {l : List α} (h : piece ∈ l.splitOn sep) : piece ⊆ l := by
  induction l generalizing piece with
  | nil =>
    obtain rfl := List.mem_singleton.mp h
    exact List.Subset.refl _
  | cons a l ih =>
    rw [List.splitOn_cons_eq_if_modifyHead] at h
    split at h
    · rcases List.mem_cons.mp h with rfl | h
      · exact List.nil_subset _
      · exact List.subset_cons_of_subset a (ih h)
    · cases hsplit : l.splitOn sep with
      | nil => exact absurd hsplit (List.splitOn_ne_nil sep l)
      | cons first rest =>
        rw [hsplit] at h ih
        rcases List.mem_cons.mp h with rfl | h
        · exact List.cons_subset_cons a (ih List.mem_cons_self)
        · exact List.subset_cons_of_subset a (ih (List.mem_cons_of_mem _ h))

variable [LawfulBEq α]

/-- A piece has no separators. -/
theorem not_mem_of_mem_splitOn {l : List α} (h : piece ∈ l.splitOn sep) : sep ∉ piece := by
  induction l generalizing piece with
  | nil =>
    obtain rfl := List.mem_singleton.mp h
    exact List.not_mem_nil
  | cons a l ih =>
    rw [List.splitOn_cons_eq_if_modifyHead] at h
    split at h
    · rcases List.mem_cons.mp h with rfl | h
      · exact List.not_mem_nil
      · exact ih h
    · next ha =>
      cases hsplit : l.splitOn sep with
      | nil => exact absurd hsplit (List.splitOn_ne_nil sep l)
      | cons first rest =>
        rw [hsplit] at h ih
        rcases List.mem_cons.mp h with rfl | h
        · refine List.not_mem_cons_of_ne_of_not_mem (fun heq => ha ?_) (ih List.mem_cons_self)
          exact beq_iff_eq.mpr heq.symm
        · exact ih (List.mem_cons_of_mem _ h)

/-- The pieces of a list that goes on: the last one goes on. -/
theorem splitOn_intercalate_append {init : List (List α)} (hinit : ∀ p ∈ init, sep ∉ p)
    (last rest : List α) :
    ([sep].intercalate (init ++ [last]) ++ rest).splitOn sep =
      init ++ (last ++ rest).splitOn sep := by
  induction init with
  | nil => rw [List.nil_append, List.intercalate_singleton, List.nil_append]
  | cons p init ih =>
    rw [List.forall_mem_cons] at hinit
    have hne : init ++ [last] ≠ [] := List.append_ne_nil_of_right_ne_nil _ (List.cons_ne_nil _ _)
    rw [List.cons_append, List.intercalate_cons_of_ne_nil hne, List.append_assoc,
      List.append_assoc, List.singleton_append, List.splitOn_append_cons_self_of_not_mem hinit.1,
      ih hinit.2, List.cons_append]

/-- A piece and its separator are found at the start of a list exactly if the first piece of it
is this one. -/
theorem append_cons_prefix_iff {p q l m : List α} (hp : sep ∉ p) (hq : sep ∉ q) :
    p ++ sep :: l <+: q ++ sep :: m ↔ p = q ∧ l <+: m := by
  constructor
  · rintro ⟨t, ht⟩
    rw [List.append_assoc, List.cons_append] at ht
    have hsplit := congrArg (List.splitOn sep) ht
    rw [List.splitOn_append_cons_self_of_not_mem hp, List.splitOn_append_cons_self_of_not_mem hq]
      at hsplit
    obtain rfl := (List.cons.inj hsplit).1
    exact ⟨rfl, t, (List.cons.inj (List.append_cancel_left ht)).2⟩
  · rintro ⟨rfl, t, rfl⟩
    exact ⟨t, by simp⟩

/-- **When one list begins like another**, whose pieces are known. -/
theorem intercalate_prefix_iff {init pieces : List (List α)} {last : List α}
    (hinit : ∀ p ∈ init, sep ∉ p) (hlast : sep ∉ last) (hpieces : ∀ p ∈ pieces, sep ∉ p)
    (hne : pieces ≠ []) :
    [sep].intercalate (init ++ [last]) <+: [sep].intercalate pieces ↔
      ∃ x more, pieces = init ++ (last ++ x) :: more := by
  induction init generalizing pieces with
  | nil =>
    obtain ⟨p, ps, rfl⟩ := List.exists_cons_of_ne_nil hne
    rw [List.nil_append, List.intercalate_singleton]
    have hstart : p <+: [sep].intercalate (p :: ps) := by
      cases ps with
      | nil => rw [List.intercalate_singleton]
      | cons q ps =>
        rw [List.intercalate_cons_cons, List.append_assoc]
        exact List.prefix_append _ _
    constructor
    · intro h
      have hp : last <+: p := by
        rcases List.prefix_or_prefix_of_prefix h hstart with hp | ⟨t, rfl⟩
        · exact hp
        · -- a longer one would begin with the piece and a separator
          cases t with
          | nil => rw [List.append_nil]
          | cons c t =>
            cases ps with
            | nil =>
              rw [List.intercalate_singleton] at h
              have hlength := h.length_le
              rw [List.length_append, List.length_cons] at hlength
              omega
            | cons q ps =>
              obtain ⟨u, hu⟩ := h
              rw [List.intercalate_cons_cons, List.append_assoc, List.append_assoc] at hu
              obtain rfl := (List.cons.inj (List.append_cancel_left hu)).1
              exact absurd (List.mem_append_right p List.mem_cons_self) hlast
      obtain ⟨x, rfl⟩ := hp
      exact ⟨x, ps, rfl⟩
    · rintro ⟨x, more, heq⟩
      obtain ⟨rfl, -⟩ := List.cons.inj heq
      exact (List.prefix_append last x).trans hstart
  | cons q init ih =>
    rw [List.forall_mem_cons] at hinit
    obtain ⟨p, ps, rfl⟩ := List.exists_cons_of_ne_nil hne
    rw [List.forall_mem_cons] at hpieces
    have hne' : init ++ [last] ≠ [] := List.append_ne_nil_of_right_ne_nil _ (List.cons_ne_nil _ _)
    rw [List.cons_append, List.intercalate_cons_of_ne_nil hne', List.append_assoc,
      List.singleton_append]
    cases ps with
    | nil =>
      rw [List.intercalate_singleton]
      refine iff_of_false (fun h => hpieces.1 (h.subset (by simp))) ?_
      rintro ⟨x, more, heq⟩
      simp at heq
    | cons r ps =>
      rw [List.intercalate_cons_cons, List.append_assoc, List.singleton_append,
        append_cons_prefix_iff hinit.1 hpieces.1, ih hinit.2 hpieces.2 (List.cons_ne_nil _ _)]
      simp only [List.cons_append, List.cons.injEq]
      constructor
      · rintro ⟨rfl, x, more, heq⟩
        exact ⟨x, more, rfl, heq⟩
      · rintro ⟨x, more, rfl, heq⟩
        exact ⟨rfl, x, more, heq⟩

end Pieces
