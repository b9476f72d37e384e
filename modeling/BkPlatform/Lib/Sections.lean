import Mathlib.Data.List.SplitBy

/-!
# Sections of a list

A list falls into sections: each begins with a header and goes on up to the next one; what
stands in front of the first header is a section as well.  A section is struck if one of its
entries that are not headers is hit.

## Main definitions

* `sections isHeader l` — the sections of `l`.
* `struck isHeader hit s` — an entry of the section `s` is hit.
* `unstruck isHeader hit l` — what is left of `l` without the struck sections.

## Main results

* `flatten_sections`, `isSection_of_mem`, `header_of_mem_tail` — what the sections are.
* `sections_append` — a header begins a section, whatever stands in front of it.
* `unstruck_flatten` — sections that are put together are kept or left out one by one.
-/

namespace Sections

variable {α : Type*} {isHeader hit : α → Bool} {l m s : List α}

/-- The sections of a list. -/
def sections (isHeader : α → Bool) (l : List α) : List (List α) := l.splitBy fun _ b => !isHeader b

/-- One of the entries that are not headers is hit. -/
def struck (isHeader hit : α → Bool) (s : List α) : Bool := s.any fun a => !isHeader a && hit a

/-- The list without the struck sections. -/
def unstruck (isHeader hit : α → Bool) (l : List α) : List α :=
  ((sections isHeader l).filter fun s => !struck isHeader hit s).flatten

/-- Only the first entry may be a header. -/
def IsSection (isHeader : α → Bool) (s : List α) : Prop := ∀ a ∈ s.tail, isHeader a = false

theorem IsSection.append (hs : IsSection isHeader s) (hm : ∀ a ∈ m, isHeader a = false) :
    IsSection isHeader (s ++ m) := by
  intro a ha
  cases s with
  | nil => exact hm a (List.mem_of_mem_tail ha)
  | cons b s =>
    rcases List.mem_append.mp ha with h | h
    · exact hs a h
    · exact hm a h

@[simp] theorem struck_append :
    struck isHeader hit (s ++ m) = (struck isHeader hit s || struck isHeader hit m) :=
  List.any_append

theorem sections_of_isSection (hs : IsSection isHeader s) (hne : s ≠ []) :
    sections isHeader s = [s] := by
  refine List.splitBy_of_isChain hne ?_
  cases s with
  | nil => exact absurd rfl hne
  | cons a s =>
    refine List.isChain_iff_getElem.mpr fun i hi => ?_
    have hi' : i < s.length := by simpa using hi
    have hnext : isHeader s[i] = false := hs s[i] (List.getElem_mem hi')
    simpa using hnext

theorem flatten_sections (isHeader : α → Bool) (l : List α) : (sections isHeader l).flatten = l :=
  List.flatten_splitBy _ l

/-- No entry behind the first one of a section is a header. -/
theorem isSection_of_mem (hs : s ∈ sections isHeader l) : IsSection isHeader s := by
  have hchain := List.isChain_of_mem_splitBy hs
  cases s with
  | nil => exact fun a ha => absurd ha List.not_mem_nil
  | cons b s =>
    clear hs
    induction s generalizing b with
    | nil => exact fun a ha => absurd ha List.not_mem_nil
    | cons c s ih =>
      obtain ⟨hc, hrest⟩ := List.isChain_cons_cons.mp hchain
      intro a ha
      rcases List.mem_cons.mp ha with rfl | ha
      · simpa using hc
      · exact ih c hrest a ha

/-- Every section but the first begins with a header. -/
theorem header_of_mem_tail (hs : s ∈ (sections isHeader l).tail) :
    ∃ a ∈ s.head?, isHeader a = true := by
  have hchain := List.isChain_getLast_head_splitBy (fun _ b => !isHeader b) l
  rw [← sections] at hchain
  revert hs hchain
  cases sections isHeader l with
  | nil => exact fun hs => absurd hs List.not_mem_nil
  | cons t ts =>
    intro hs hchain
    simp only [List.tail_cons] at hs
    induction ts generalizing t with
    | nil => exact absurd hs List.not_mem_nil
    | cons u us ih =>
      obtain ⟨⟨-, hne, hhead⟩, hrest⟩ := List.isChain_cons_cons.mp hchain
      rcases List.mem_cons.mp hs with rfl | hs
      · exact ⟨s.head hne, List.head_mem_head? hne, by simpa using hhead⟩
      · exact ih u hs hrest

/-- **A header begins a section.** -/
theorem sections_append (hm : ∀ a ∈ m.head?, isHeader a = true) :
    sections isHeader (l ++ m) = sections isHeader l ++ sections isHeader m :=
  List.splitBy_append fun _ _ b hb => by simp [hm b hb]

@[simp] theorem unstruck_nil : unstruck isHeader hit [] = [] := rfl

theorem unstruck_append (hm : ∀ a ∈ m.head?, isHeader a = true) :
    unstruck isHeader hit (l ++ m) = unstruck isHeader hit l ++ unstruck isHeader hit m := by
  rw [unstruck, sections_append hm, List.filter_append, List.flatten_append]
  rfl

/-- A section is left out if it is struck, and kept otherwise. -/
theorem unstruck_of_isSection (hs : IsSection isHeader s) :
    unstruck isHeader hit s = if struck isHeader hit s then [] else s := by
  rcases eq_or_ne s [] with rfl | hne
  · simp
  · rw [unstruck, sections_of_isSection hs hne]
    cases h : struck isHeader hit s
    · simp [h]
    · simp [h]

/-- Sections that are put together are kept or left out one by one. -/
theorem unstruck_flatten {ss : List (List α)} (hss : ∀ s ∈ ss, IsSection isHeader s)
    (hheads : ∀ s ∈ ss, ∃ a ∈ s.head?, isHeader a = true) :
    unstruck isHeader hit ss.flatten =
      (ss.filter fun s => !struck isHeader hit s).flatten := by
  induction ss with
  | nil => rfl
  | cons s ss ih =>
    rw [List.forall_mem_cons] at hss hheads
    have hnext : ∀ a ∈ ss.flatten.head?, isHeader a = true := by
      cases ss with
      | nil => simp
      | cons t ts =>
        obtain ⟨a, ha, hhead⟩ := hheads.2 t List.mem_cons_self
        obtain ⟨rest, rfl⟩ : ∃ rest, t = a :: rest := by
          cases t with
          | nil => simp at ha
          | cons b rest => exact ⟨rest, by simpa using ha⟩
        simpa using hhead
    rw [List.flatten_cons, unstruck_append hnext, unstruck_of_isSection hss.1,
      ih hss.2 hheads.2]
    cases h : struck isHeader hit s
    · simp [h]
    · simp [h]

end Sections
