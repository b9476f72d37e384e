import Mathlib.Data.List.Basic

/-!
# Editing the lines of a range

A stream editor goes through the lines of a file.  A range begins at a line that matches its
first address and ends at a line behind it that matches its second one, or with the file, and
may then begin again.  Two commands are followed here: deleting the lines of a range that are
not to be kept, and appending a line behind each line that matches.

Where one line only matches the first address, both change nothing but what lies between the
two ends of the range.

## Main definitions

* `deleteIn`, `appendAt` — the two commands.
* `Block` — a file with one range.
* `Block.withBody` — the file with other lines in the range.

## Main results

* `exists_block` — what a file with one range is, in terms of counts.
* `deleteIn_lines`, `foldl_appendAt_lines` — **what the commands make of the range.**
-/

namespace LineRange

variable {α : Type*} {first last keep p : α → Bool}

/-! ### Commands -/

/-- Deletes the lines of the range from `first` to `last` that are not to be kept; the flag
says that a range has begun. -/
def deleteIn (first last keep : α → Bool) : Bool → List α → List α
  | _, [] => []
  | false, l :: ls =>
    if first l then
      if keep l then l :: deleteIn first last keep true ls else deleteIn first last keep true ls
    else l :: deleteIn first last keep false ls
  | true, l :: ls =>
    if keep l then l :: deleteIn first last keep (!last l) ls
    else deleteIn first last keep (!last l) ls

/-- Appends a line behind each one that matches. -/
def appendAt (p : α → Bool) (new : α) (lines : List α) : List α :=
  lines.flatMap fun l => if p l then [l, new] else [l]

/-- In front of a range nothing is deleted. -/
theorem deleteIn_false_append {u : List α} (h : ∀ l ∈ u, first l = false) (v : List α) :
    deleteIn first last keep false (u ++ v) = u ++ deleteIn first last keep false v := by
  induction u with
  | nil => rfl
  | cons l u ih =>
    rw [List.forall_mem_cons] at h
    rw [List.cons_append, deleteIn, h.1, if_neg Bool.false_ne_true, ih h.2, List.cons_append]

/-- In a range, only lines to be kept are left. -/
theorem deleteIn_true_append {u : List α} (h : ∀ l ∈ u, last l = false) (v : List α) :
    deleteIn first last keep true (u ++ v) =
      u.filter keep ++ deleteIn first last keep true v := by
  induction u with
  | nil => rfl
  | cons l u ih =>
    rw [List.forall_mem_cons] at h
    rw [List.cons_append, deleteIn, h.1, Bool.not_false, ih h.2, List.filter_cons]
    split <;> rfl

theorem appendAt_append (new : α) (u v : List α) :
    appendAt p new (u ++ v) = appendAt p new u ++ appendAt p new v := List.flatMap_append

theorem appendAt_of_forall {u : List α} (h : ∀ l ∈ u, p l = false) (new : α) :
    appendAt p new u = u := by
  induction u with
  | nil => rfl
  | cons l u ih =>
    rw [List.forall_mem_cons] at h
    rw [appendAt, List.flatMap_cons, h.1, if_neg Bool.false_ne_true, ← appendAt, ih h.2]
    rfl

/-! ### A file with one range -/

/-- A file with one range: one line of it matches the first address, and one behind it ends the
range. -/
structure Block (first last : α → Bool) where
  before : List α
  head : α
  body : List α
  foot : α
  after : List α
  head_first : first head = true
  foot_last : last foot = true
  foot_first : first foot = false
  before_first : ∀ l ∈ before, first l = false
  body_plain : ∀ l ∈ body, first l = false ∧ last l = false
  after_first : ∀ l ∈ after, first l = false

namespace Block

/-- The lines of the file. -/
def lines (b : Block first last) : List α := b.before ++ b.head :: (b.body ++ b.foot :: b.after)

/-- The file with other lines in the range. -/
def withBody (b : Block first last) (body : List α)
    (h : ∀ l ∈ body, first l = false ∧ last l = false) : Block first last :=
  { b with body := body, body_plain := h }

@[simp] theorem lines_withBody (b : Block first last) (body : List α)
    (h : ∀ l ∈ body, first l = false ∧ last l = false) :
    (b.withBody body h).lines = b.before ++ b.head :: (body ++ b.foot :: b.after) := rfl

/-- **Deleting leaves of the range what is to be kept**, if that includes its ends. -/
theorem deleteIn_lines (b : Block first last) (hhead : keep b.head = true)
    (hfoot : keep b.foot = true) :
    deleteIn first last keep false b.lines =
      b.before ++ b.head :: (b.body.filter keep ++ b.foot :: b.after) := by
  have hbody : ∀ l ∈ b.body, last l = false := fun l hl => (b.body_plain l hl).2
  have hafter : deleteIn first last keep false b.after = b.after := by
    have h := @deleteIn_false_append α first last keep b.after b.after_first []
    simpa [deleteIn] using h
  rw [lines, deleteIn_false_append b.before_first, deleteIn, if_pos b.head_first, if_pos hhead,
    deleteIn_true_append hbody, deleteIn, if_pos hfoot, b.foot_last, Bool.not_true, hafter]

/-- A line is appended right behind the line that begins the range. -/
theorem appendAt_lines (b : Block first last) (new : α) :
    appendAt first new b.lines =
      b.before ++ b.head :: (new :: b.body ++ b.foot :: b.after) := by
  have hrest : ∀ l ∈ b.body ++ b.foot :: b.after, first l = false := by
    intro l hl
    rw [List.mem_append, List.mem_cons] at hl
    rcases hl with hl | rfl | hl
    · exact (b.body_plain l hl).1
    · exact b.foot_first
    · exact b.after_first l hl
  have hhead : appendAt first new (b.head :: (b.body ++ b.foot :: b.after)) =
      b.head :: new :: appendAt first new (b.body ++ b.foot :: b.after) := by
    rw [appendAt, List.flatMap_cons, if_pos b.head_first]
    rfl
  rw [lines, appendAt_append, appendAt_of_forall b.before_first, hhead, appendAt_of_forall hrest]
  rfl

/-- **Lines that are appended one after the other** stand in the range in reverse order. -/
theorem foldl_appendAt_lines (b : Block first last) (news : List α)
    (h : ∀ l ∈ news, first l = false ∧ last l = false) :
    news.foldl (fun lines new => appendAt first new lines) b.lines =
      b.before ++ b.head :: (news.reverse ++ b.body ++ b.foot :: b.after) := by
  induction news generalizing b with
  | nil => rfl
  | cons new news ih =>
    rw [List.forall_mem_cons] at h
    have hplain : ∀ l ∈ new :: b.body, first l = false ∧ last l = false :=
      List.forall_mem_cons.mpr ⟨h.1, b.body_plain⟩
    rw [List.foldl_cons, b.appendAt_lines, ← b.lines_withBody (new :: b.body) hplain,
      ih (b.withBody (new :: b.body) hplain) h.2]
    simp [withBody]

end Block

/-- The first line that matches. -/
theorem exists_first {l : List α} (h : l.countP p ≠ 0) :
    ∃ u a v, l = u ++ a :: v ∧ p a = true ∧ ∀ x ∈ u, p x = false := by
  induction l with
  | nil => exact absurd rfl h
  | cons x l ih =>
    cases hx : p x with
    | true => exact ⟨[], x, l, rfl, hx, fun y hy => absurd hy List.not_mem_nil⟩
    | false =>
      rw [List.countP_cons, hx, if_neg Bool.false_ne_true, Nat.add_zero] at h
      obtain ⟨u, a, v, rfl, ha, hu⟩ := ih h
      exact ⟨x :: u, a, v, rfl, ha, List.forall_mem_cons.mpr ⟨hx, hu⟩⟩

/-- **A file with one range**: one line matches the first address, and one line behind it the
second one. -/
theorem exists_block {l : List α} (hfirst : l.countP first = 1)
    (hlast : (l.dropWhile fun a => !first a).tail.countP last = 1) :
    ∃ b : Block first last, b.lines = l := by
  obtain ⟨before, head, rest, rfl, hhead, hbefore⟩ := exists_first (p := first) (l := l) (by omega)
  have hnone : before.countP first = 0 := List.countP_eq_zero.mpr fun a ha => by simp [hbefore a ha]
  have hrest : ∀ a ∈ rest, first a = false := by
    rw [List.countP_append, hnone, List.countP_cons, if_pos hhead] at hfirst
    have h := List.countP_eq_zero.mp (show rest.countP first = 0 by omega)
    exact fun a ha => by simpa using h a ha
  have htail : ((before ++ head :: rest).dropWhile fun a => !first a).tail = rest := by
    rw [List.dropWhile_append_of_pos fun a ha => by simp [hbefore a ha]]
    simp [hhead]
  rw [htail] at hlast
  obtain ⟨body, foot, after, rfl, hfoot, hbody⟩ := exists_first (p := last) (l := rest) (by omega)
  rw [List.forall_mem_append, List.forall_mem_cons] at hrest
  exact ⟨⟨before, head, body, foot, after, hhead, hfoot, hrest.2.1, hbefore,
    fun a ha => ⟨hrest.1 a ha, hbody a ha⟩, hrest.2.2⟩, rfl⟩

end LineRange
