import Mathlib.Data.Int.Notation
import Mathlib.Data.List.Basic
import Mathlib.Tactic.Positivity
import Mathlib.Tactic.Ring

/-!
# Probing for a free number

`probe taken stride n i` goes from `i` in steps of `stride` as long as the number
is taken, for at most `n` steps.  A rank that falls at every step bounds how
many steps there can be, so with that much fuel the probe ends at a number that
is not taken.

## Main definitions

* `probe taken stride n i` — the search.
* `Walks taken stride i j` — the search without a bound, from `i` to where it ends.

## Main results

* `probe_stops` — **with fuel for its rank the search ends at a free number.**
* `walks_probe` — then it is the search without a bound.
* `probe_walk` — the numbers it has passed are taken.
* `probe_not_mem` — the numbers of a finite list run out.
-/

namespace Probe

variable {taken : ℤ → Bool} {stride : ℤ}

/-- Go on from `i` in steps of `stride` while the number is taken. -/
def probe (taken : ℤ → Bool) (stride : ℤ) : ℕ → ℤ → ℤ
  | 0, i => i
  | n + 1, i => if taken i then probe taken stride n (i + stride) else i

/-- With fuel for the rank of its start, the search ends at a number that is not taken. -/
theorem probe_stops (rank : ℤ → ℕ) (hrank : ∀ i, taken i = true → rank (i + stride) < rank i)
    {n : ℕ} {i : ℤ} (hn : rank i ≤ n) : taken (probe taken stride n i) = false := by
  induction n generalizing i with
  | zero =>
    rw [probe]
    by_contra htaken
    have hlt := hrank i (by simpa using htaken)
    omega
  | succ n ih =>
    rw [probe]
    split
    · next htaken =>
      have hlt := hrank i htaken
      exact ih (by omega)
    · next hfree => simpa using hfree

variable (taken stride) in
/-- `while i is taken: i += stride`, from `i` to the number it ends with. -/
inductive Walks : ℤ → ℤ → Prop
  | stop {i : ℤ} (hfree : taken i = false) : Walks i i
  | next {i j : ℤ} (htaken : taken i = true) (hrest : Walks (i + stride) j) : Walks i j

/-- A search that ends at a number that is not taken has not run out of fuel. -/
theorem walks_probe {n : ℕ} {i : ℤ} (h : taken (probe taken stride n i) = false) :
    Walks taken stride i (probe taken stride n i) := by
  induction n generalizing i with
  | zero => exact Walks.stop h
  | succ n ih =>
    rw [probe] at h ⊢
    split
    · next htaken =>
      rw [if_pos htaken] at h
      exact Walks.next htaken (ih h)
    · next hfree => exact Walks.stop (by simpa using hfree)

variable (taken stride) in
/-- The search ends a number of strides further on, and all numbers before are taken. -/
theorem probe_walk (n : ℕ) (i : ℤ) :
    ∃ k : ℕ, probe taken stride n i = i + k * stride ∧
      ∀ j : ℕ, j < k → taken (i + j * stride) = true := by
  induction n generalizing i with
  | zero => exact ⟨0, by simp [probe], fun j hj => absurd hj (Nat.not_lt_zero j)⟩
  | succ n ih =>
    rw [probe]
    split
    · next htaken =>
      -- one stride, and then those of the rest of the search
      obtain ⟨k, hk, hpassed⟩ := ih (i + stride)
      refine ⟨k + 1, by rw [hk]; push_cast; ring, fun j hj => ?_⟩
      cases j with
      | zero => simpa using htaken
      | succ j =>
        have hstep : i + ((j + 1 : ℕ) : ℤ) * stride = i + stride + j * stride := by
          push_cast
          ring
        rw [hstep]
        exact hpassed j (by omega)
    · exact ⟨0, by simp, fun j hj => absurd hj (Nat.not_lt_zero j)⟩

/-- The search never goes back. -/
theorem le_probe (hstride : 0 ≤ stride) (n : ℕ) (i : ℤ) : i ≤ probe taken stride n i := by
  obtain ⟨k, hk, -⟩ := probe_walk taken stride n i
  have hnonneg : 0 ≤ (k : ℤ) * stride := by positivity
  omega

/-- How many members of the list are not below `i`. -/
def above (rs : List ℤ) (i : ℤ) : ℕ := (rs.filter fun r => i ≤ r).length

/-- Each member of the list can be passed once. -/
theorem above_lt {rs : List ℤ} {i : ℤ} (hstride : 0 < stride) (hi : i ∈ rs) :
    above rs (i + stride) < above rs i := by
  have hsub : List.Sublist (rs.filter fun r => i + stride ≤ r) (rs.filter fun r => i ≤ r) := by
    apply List.monotone_filter_right
    intro r hr
    rw [decide_eq_true_eq] at hr ⊢
    omega
  have hmem : i ∈ rs.filter fun r => i ≤ r := List.mem_filter.mpr ⟨hi, by simp⟩
  apply Nat.lt_of_le_of_ne hsub.length_le
  intro heq
  -- of equal length they would be equal, but `i` is in one of them only
  rw [← hsub.eq_of_length heq, List.mem_filter, decide_eq_true_eq] at hmem
  omega

/-- **The members of a finite list run out**: a search that goes on as long as the
number is in the list ends outside the list. -/
theorem probe_not_mem (rs : List ℤ) (hstride : 0 < stride) (i : ℤ) :
    probe (fun j => j ∈ rs) stride rs.length i ∉ rs := by
  have hfuel : above rs i ≤ rs.length := List.length_filter_le _ rs
  have hstop : decide (probe (fun j => j ∈ rs) stride rs.length i ∈ rs) = false :=
    probe_stops (above rs) (fun j hj => above_lt hstride (of_decide_eq_true hj)) hfuel
  exact of_decide_eq_false hstop

end Probe
