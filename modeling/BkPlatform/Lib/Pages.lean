import Mathlib.Data.List.Basic
import Mathlib.Data.List.Perm.Basic

/-!
# Reading a table page by page

A table is read in pages of one size, and each page is cut out of an order of its own: the
rows are sorted, but rows that are tied may stand in any order, and in another one for the next
page.  The pages together hold every row once, whatever the orders are, exactly if rows that are
tied and do not fit on one side of the end of a page are equal.

## Main definitions

* `Comparison` — a total preorder.
* `Comparison.comap`, `Comparison.refine` — by a function, and with ties broken.
* `Comparison.Arranges` — a sorted order of the rows.
* `page`, `pages` — a page of one order, and the first pages of several ones.
* `Comparison.Complete` — the pages hold every row once.
* `Comparison.Settled` — the condition on the rows.

## Main results

* `countP_take` — how many rows of a lower part are among the first ones.
* `perm_take` — the first pages, if ties do not matter.
* `complete_iff` — **exactly when the pages hold every row once.**
* `settled_of_antisymm` — ties do not matter where there are none.
-/

namespace Pages

variable {α : Type*}

/-! ### Comparisons -/

/-- A total preorder. -/
structure Comparison (α : Type*) where
  le : α → α → Bool
  trans : ∀ a b c, le a b = true → le b c = true → le a c = true
  total : ∀ a b, (le a b || le b a) = true

namespace Comparison

variable (r : Comparison α) {a b c : α} {rows order order' : List α} {size k : ℕ}

theorem refl (a : α) : r.le a a = true := by simpa using r.total a a

theorem le_of_not (h : r.le a b = false) : r.le b a = true := by simpa [h] using r.total a b

/-- All elements are tied. -/
def indifferent : Comparison α where
  le _ _ := true
  trans _ _ _ _ _ := rfl
  total _ _ := rfl

/-- Elements are compared by what a function makes of them. -/
def comap {β : Type*} (r : Comparison β) (f : α → β) : Comparison α where
  le a b := r.le (f a) (f b)
  trans a b c := r.trans (f a) (f b) (f c)
  total a b := r.total (f a) (f b)

/-- The other way round. -/
def reverse (r : Comparison α) : Comparison α where
  le a b := r.le b a
  trans a b c hab hbc := r.trans c b a hbc hab
  total a b := r.total b a

/-- Ties are broken by a number. -/
def refine (f : α → ℕ) : Comparison α where
  le a b := r.le a b && (!r.le b a || decide (f a ≤ f b))
  trans a b c hab hbc := by
    simp only [Bool.and_eq_true, Bool.or_eq_true, Bool.not_eq_true', decide_eq_true_eq] at *
    refine ⟨r.trans a b c hab.1 hbc.1, ?_⟩
    cases hca : r.le c a with
    | false => exact Or.inl rfl
    | true =>
      -- then all three are tied
      have hba := r.trans b c a hbc.1 hca
      have hcb := r.trans c a b hca hab.1
      rw [hba] at hab
      rw [hcb] at hbc
      simp only [Bool.true_eq_false, false_or] at hab hbc
      exact Or.inr (Nat.le_trans hab.2 hbc.2)
  total a b := by
    have htotal := r.total a b
    cases hab : r.le a b with
    | false =>
      rw [hab, Bool.false_or] at htotal
      simp [htotal]
    | true =>
      cases hba : r.le b a with
      | false => simp
      | true => simpa using Nat.le_total (f a) (f b)

theorem le_of_refine {f : α → ℕ} (h : (r.refine f).le a b = true) : r.le a b = true :=
  (Bool.and_eq_true_iff.mp h).1

/-- A sorted order of the rows. -/
structure Arranges (rows order : List α) : Prop where
  perm : order.Perm rows
  sorted : order.Pairwise fun a b => r.le a b = true

theorem arranges_mergeSort (rows : List α) : r.Arranges rows (rows.mergeSort r.le) where
  perm := List.mergeSort_perm _ _
  sorted := List.pairwise_mergeSort r.trans r.total rows

variable {r} in
theorem Arranges.of_refine {f : α → ℕ} (h : (r.refine f).Arranges rows order) :
    r.Arranges rows order :=
  ⟨h.perm, h.sorted.imp fun hab => r.le_of_refine hab⟩

/-! ### Ties -/

/-- How many rows stand in front of those that are tied with `a`. -/
def below (rows : List α) (a : α) : ℕ := rows.countP fun x => !r.le a x

/-- How many rows there are up to the last one that is tied with `a`. -/
def upTo (rows : List α) (a : α) : ℕ := rows.countP fun x => r.le x a

/-- How many rows are tied with `a`. -/
def ties (rows : List α) (a : α) : ℕ := rows.countP fun x => r.le x a && r.le a x

theorem upTo_eq (rows : List α) (a : α) : r.upTo rows a = r.below rows a + r.ties rows a := by
  induction rows with
  | nil => rfl
  | cons x rows ih =>
    unfold upTo below ties at *
    rw [List.countP_cons, List.countP_cons, List.countP_cons, ih]
    cases hax : r.le a x with
    | true =>
      simp only [Bool.not_true, Bool.and_true, Bool.false_eq_true, if_false, Nat.add_zero]
      exact Nat.add_assoc _ _ _
    | false =>
      rw [r.le_of_not hax]
      simp only [Bool.not_false, Bool.and_false, Bool.false_eq_true, if_true, if_false,
        Nat.add_zero]
      exact Nat.add_right_comm _ _ _

/-- A row is tied with itself. -/
theorem count_le_ties [DecidableEq α] (rows : List α) (a : α) : rows.count a ≤ r.ties rows a := by
  refine List.countP_mono_left fun x _ hx => ?_
  rw [beq_iff_eq.mp hx, r.refl, Bool.and_self]

/-- Where ties are broken, a row that differs from all others is tied with itself only. -/
theorem ties_refine [DecidableEq α] {f : α → ℕ} (hf : ∀ x, f x = f a → x = a) (rows : List α) :
    (r.refine f).ties rows a = rows.count a := by
  refine List.countP_congr fun x _ => ?_
  rw [beq_iff_eq]
  constructor
  · intro h
    obtain ⟨hxa, hax⟩ := Bool.and_eq_true_iff.mp h
    have hx := r.le_of_refine hxa
    have ha := r.le_of_refine hax
    simp only [refine, hx, ha, Bool.not_true, Bool.false_or, Bool.true_and,
      decide_eq_true_eq] at hxa hax
    exact hf x (Nat.le_antisymm hxa hax)
  · rintro rfl
    rw [refl, Bool.and_self]

/-- A row that comes first among those it is tied with. -/
theorem below_refine {f : α → ℕ} (hf : ∀ x, f a ≤ f x) (rows : List α) :
    (r.refine f).below rows a = r.below rows a := by
  refine List.countP_congr fun x _ => ?_
  simp [refine, hf x]

/-- A row that comes last among those it is tied with. -/
theorem upTo_refine {f : α → ℕ} (hf : ∀ x, f x ≤ f a) (rows : List α) :
    (r.refine f).upTo rows a = r.upTo rows a := by
  refine List.countP_congr fun x _ => ?_
  simp [refine, hf x]

end Comparison

/-! ### The first rows of an order -/

/-- How many rows of a lower part are among the first ones of a sorted order. -/
theorem countP_take {R : α → α → Prop} {order : List α} (h : order.Pairwise R) {q : α → Bool}
    (hq : ∀ x y, R x y → q y = true → q x = true) (n : ℕ) :
    (order.take n).countP q = min n (order.countP q) := by
  induction order generalizing n with
  | nil => simp
  | cons x order ih =>
    obtain ⟨hx, htail⟩ := List.pairwise_cons.mp h
    cases n with
    | zero => simp
    | succ n =>
      rw [List.take_succ_cons, List.countP_cons, List.countP_cons, ih htail]
      cases hqx : q x with
      | true => simp
      | false =>
        -- nothing behind the first row belongs to the lower part
        have hnone : order.countP q = 0 := by
          rw [List.countP_eq_zero]
          intro y hy hqy
          rw [hq x y (hx y hy) hqy] at hqx
          cases hqx
        simp [hnone]

namespace Comparison

variable {r : Comparison α} {a b c : α} {rows order order' : List α} {size k : ℕ}

theorem Arranges.below_take (h : r.Arranges rows order) (a : α) (n : ℕ) :
    r.below (order.take n) a = min n (r.below rows a) := by
  rw [below, countP_take h.sorted, h.perm.countP_eq, below]
  intro x y hxy hy
  rw [Bool.not_eq_true'] at hy ⊢
  rw [Bool.eq_false_iff] at hy ⊢
  exact fun hx => hy (r.trans a x y hx hxy)

theorem Arranges.upTo_take (h : r.Arranges rows order) (a : α) (n : ℕ) :
    r.upTo (order.take n) a = min n (r.upTo rows a) := by
  rw [upTo, countP_take h.sorted, h.perm.countP_eq, upTo]
  exact fun x y hxy hy => r.trans x y a hxy hy

/-- How many ties are among the first rows. -/
theorem Arranges.ties_take (h : r.Arranges rows order) (a : α) (n : ℕ) :
    r.ties (order.take n) a = min n (r.upTo rows a) - min n (r.below rows a) := by
  rw [← h.below_take, ← h.upTo_take, upTo_eq, Nat.add_sub_cancel_left]

/-- **Ties do not matter**: rows that are tied, and lie on both sides of the end of a page, are
equal. -/
def Settled (r : Comparison α) (size : ℕ) (rows : List α) : Prop :=
  ∀ a ∈ rows, ∀ c ∈ rows, r.le a c = true → r.le c a = true →
    ∀ k, r.below rows a < k * size → k * size < r.upTo rows a → a = c

/-- How often a row stands on the first pages. -/
theorem Settled.count_take [DecidableEq α] (hsettled : r.Settled size rows)
    (h : r.Arranges rows order) (ha : a ∈ rows) (k : ℕ) :
    (order.take (k * size)).count a =
      if k * size ≤ r.below rows a then 0
      else if r.upTo rows a ≤ k * size then rows.count a
      else k * size - r.below rows a := by
  have hties := h.ties_take a (k * size)
  have hle := r.count_le_ties (order.take (k * size)) a
  split
  · -- all ties come later
    omega
  · split
    · -- there are no ties left
      have hall := r.upTo_eq rows a
      have hrows : r.ties rows a = r.ties order a := h.perm.symm.countP_eq _
      have hsplit : r.ties order a =
          r.ties (order.take (k * size)) a + r.ties (order.drop (k * size)) a := by
        rw [ties, ties, ties, ← List.countP_append, List.take_append_drop]
      have hcount : order.count a =
          (order.take (k * size)).count a + (order.drop (k * size)).count a := by
        rw [← List.count_append, List.take_append_drop]
      have hrest := r.count_le_ties (order.drop (k * size)) a
      rw [← h.perm.count_eq]
      omega
    · -- the page ends among the ties, which are equal
      have heq : (order.take (k * size)).count a = r.ties (order.take (k * size)) a := by
        refine List.countP_congr fun x hx => ?_
        rw [beq_iff_eq]
        constructor
        · rintro rfl
          rw [r.refl, Bool.and_self]
        · intro htied
          obtain ⟨hxa, hax⟩ := Bool.and_eq_true_iff.mp htied
          have hmem : x ∈ rows := h.perm.subset (List.mem_of_mem_take hx)
          exact (hsettled a ha x hmem hax hxa k (by omega) (by omega)).symm
      omega

/-- **The first pages**, if ties do not matter: they hold the same rows in every order. -/
theorem Settled.perm_take (hsettled : r.Settled size rows) (h : r.Arranges rows order)
    (h' : r.Arranges rows order') (k : ℕ) :
    (order.take (k * size)).Perm (order'.take (k * size)) := by
  classical
  refine List.perm_iff_count.mpr fun a => ?_
  by_cases ha : a ∈ rows
  · rw [hsettled.count_take h ha, hsettled.count_take h' ha]
  · have hnone : ∀ {o : List α}, r.Arranges rows o → (o.take (k * size)).count a = 0 :=
      fun ho => List.count_eq_zero.mpr fun hm => ha (ho.perm.subset (List.mem_of_mem_take hm))
    rw [hnone h, hnone h']

/-- There are no ties between different rows. -/
theorem settled_of_antisymm
    (h : ∀ a ∈ rows, ∀ c ∈ rows, r.le a c = true → r.le c a = true → a = c) :
    r.Settled size rows :=
  fun a ha c hc hac hca _ _ _ => h a ha c hc hac hca

end Comparison

/-! ### Pages -/

/-- A page of an order. -/
def page (size k : ℕ) (order : List α) : List α := (order.drop (k * size)).take size

/-- The first pages, each of an order of its own. -/
def pages (size : ℕ) (orders : ℕ → List α) (n : ℕ) : List α :=
  (List.range n).flatMap fun k => page size k (orders k)

theorem pages_succ (size : ℕ) (orders : ℕ → List α) (n : ℕ) :
    pages size orders (n + 1) = pages size orders n ++ page size n (orders n) := by
  rw [pages, List.range_succ, List.flatMap_append, List.flatMap_singleton, pages]

/-- The next page of an order. -/
theorem take_append_page (size n : ℕ) (order : List α) :
    order.take (n * size) ++ page size n order = order.take ((n + 1) * size) := by
  rw [page, ← List.take_add, Nat.succ_mul]

/-- The pages of one order up to some page, and of another one from there on. -/
theorem pages_switch (size k n : ℕ) (order order' : List α) :
    pages size (fun j => if j < k then order else order') (k + n) =
      order.take (k * size) ++ (order'.drop (k * size)).take (n * size) := by
  have hfirst : ∀ m ≤ k, pages size (fun j => if j < k then order else order') m =
      order.take (m * size) := by
    intro m hm
    induction m with
    | zero => simp [pages]
    | succ m ih =>
      rw [pages_succ, ih (Nat.le_of_succ_le hm), if_pos (Nat.lt_of_succ_le hm),
        take_append_page]
  induction n with
  | zero => simpa using hfirst k (Nat.le_refl k)
  | succ n ih =>
    rw [← Nat.add_assoc, pages_succ, ih, if_neg (by omega), page, List.append_assoc,
      Nat.succ_mul, List.take_add, List.drop_drop, ← Nat.add_mul]

namespace Comparison

variable {r : Comparison α} {rows order order' : List α} {orders : ℕ → List α} {size : ℕ}

/-- **The pages hold every row once**: all of them together, as soon as there are enough for the
rows. -/
def Complete (r : Comparison α) (size : ℕ) (rows : List α) : Prop :=
  ∀ orders : ℕ → List α, (∀ k, r.Arranges rows (orders k)) →
    ∀ n, rows.length ≤ n * size → (pages size orders n).Perm rows

theorem Settled.perm_pages (hsettled : r.Settled size rows)
    (horders : ∀ k, r.Arranges rows (orders k)) (h : r.Arranges rows order) (n : ℕ) :
    (pages size orders n).Perm (order.take (n * size)) := by
  induction n generalizing order with
  | zero => simp [pages]
  | succ n ih =>
    have hnext : (pages size orders n ++ page size n (orders n)).Perm
        ((orders n).take (n * size) ++ page size n (orders n)) :=
      (ih (horders n)).append_right _
    rw [take_append_page, ← pages_succ] at hnext
    exact hnext.trans (hsettled.perm_take (horders n) h (n + 1))

/-- If the pages hold every row once, the first ones hold the same rows in every order: else
one order could be followed up to some page, and the other one from there on. -/
theorem Complete.perm_take (hcomplete : r.Complete size rows) (hsize : 1 ≤ size)
    (h : r.Arranges rows order) (h' : r.Arranges rows order') (k : ℕ) :
    (order.take (k * size)).Perm (order'.take (k * size)) := by
  have horders : ∀ j, r.Arranges rows (if j < k then order else order') := by
    intro j
    split
    · exact h
    · exact h'
  have henough : rows.length ≤ rows.length * size := Nat.le_mul_of_pos_right _ hsize
  have hpages := hcomplete _ horders (k + rows.length) (by
    rw [Nat.add_mul]
    omega)
  have hrest : (order'.drop (k * size)).take (rows.length * size) = order'.drop (k * size) := by
    refine List.take_of_length_le ?_
    rw [List.length_drop, h'.perm.length_eq]
    omega
  rw [pages_switch, hrest] at hpages
  have hall : (order'.take (k * size) ++ order'.drop (k * size)).Perm rows := by
    rw [List.take_append_drop]
    exact h'.perm
  exact (List.perm_append_right_iff _).mp (hpages.trans hall.symm)

/-- If the first pages hold the same rows in every order, ties do not matter: else one of the
rows could come first, or last, among those it is tied with. -/
theorem settled_of_perm_take
    (hperm : ∀ {order order' : List α}, r.Arranges rows order → r.Arranges rows order' → ∀ k,
      (order.take (k * size)).Perm (order'.take (k * size))) : r.Settled size rows := by
  classical
  intro a ha c hc hac hca k hbelow hupTo
  by_contra hne
  have hfirst := (r.refine fun x => if x = a then 0 else 1).arranges_mergeSort rows
  have hlast := (r.refine fun x => if x = a then 1 else 0).arranges_mergeSort rows
  have hcount := (hperm hfirst.of_refine hlast.of_refine k).count_eq a
  have hdiffers : ∀ {u v : ℕ}, u ≠ v → ∀ x, (if x = a then u else v) = (if a = a then u else v) →
      x = a := by
    intro u v huv x hx
    by_contra hxa
    rw [if_neg hxa, if_pos rfl] at hx
    exact huv hx.symm
  have hone := hdiffers Nat.zero_ne_one
  have hzero := hdiffers Nat.one_ne_zero
  -- how often the row stands on the first pages of either order
  rw [← r.ties_refine hone, ← r.ties_refine hzero, hfirst.ties_take, hlast.ties_take, upTo_eq,
    r.below_refine (by simp), r.ties_refine hone] at hcount
  have hsplit := (r.refine fun x => if x = a then 1 else 0).upTo_eq rows a
  rw [r.upTo_refine (by intro x; split <;> simp), r.ties_refine hzero] at hsplit
  rw [r.upTo_refine (by intro x; split <;> simp)] at hcount
  -- it is there, and so is a different row it is tied with
  have hpos : 0 < rows.count a := List.count_pos_iff.mpr ha
  have hties := r.upTo_eq rows a
  have hmore : rows.count a < r.ties rows a := by
    have hrows := List.perm_cons_erase hc
    have hle := r.count_le_ties (rows.erase c) a
    have hcounted : rows.count a = (rows.erase c).count a := by
      rw [hrows.count_eq, List.count_cons_of_ne (Ne.symm hne)]
    have htied : r.ties rows a = r.ties (rows.erase c) a + 1 := by
      rw [ties, hrows.countP_eq, List.countP_cons, hac, hca]
      rfl
    omega
  omega

/-- **Exactly when the pages hold every row once.** -/
theorem complete_iff (hsize : 1 ≤ size) : r.Complete size rows ↔ r.Settled size rows := by
  constructor
  · exact fun h => settled_of_perm_take fun ho ho' k => h.perm_take hsize ho ho' k
  · intro h orders horders n hn
    have hperm := h.perm_pages horders (r.arranges_mergeSort rows) n
    have hall : (rows.mergeSort r.le).take (n * size) = rows.mergeSort r.le :=
      List.take_of_length_le (by rwa [List.length_mergeSort])
    rw [hall] at hperm
    exact hperm.trans (List.mergeSort_perm _ _)

end Comparison

end Pages
