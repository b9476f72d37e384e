import Mathlib.Data.List.Infix
import Mathlib.Data.List.Nodup
import Mathlib.Data.List.Range
import Mathlib.Data.Nat.Notation

/-!
# Names with a running number

A stem followed by a number in decimal digits.  The names of different numbers differ;
one may be part of another, as `web-1` is of `web-12`, but only of one with a larger
number.

## Main definitions

* `numbered stem n` — the name of number `n`.
* `firstNames stem n` — the names of the numbers `1` to `n`.

## Main results

* `numbered_injective` — the number can be read off the name.
* `le_of_part` — **a name is part of one with a number at least as large only.**
* `ten_mul_le_of_part` — ten times as large, unless it is the same.
-/

/-- The name of number `n`. -/
def numbered (stem : String) (n : ℕ) : String := stem ++ toString n

/-- The names of the first `n` numbers. -/
def firstNames (stem : String) (n : ℕ) : List String :=
  (List.range n).map fun k => numbered stem (k + 1)

/-- One string is part of another. -/
def IsPart (s t : String) : Prop := s.toList <:+: t.toList

instance (s t : String) : Decidable (IsPart s t) :=
  inferInstanceAs (Decidable (s.toList <:+: t.toList))

/-! ### Digits -/

theorem toList_numbered (stem : String) (n : ℕ) :
    (numbered stem n).toList = stem.toList ++ Nat.toDigits 10 n := by
  rw [numbered, String.toList_append]
  exact congrArg _ Nat.toList_repr

theorem toDigits_injective : Function.Injective (Nat.toDigits 10) := by
  intro n m h
  rw [← @Nat.ofDigitChars_ten_toDigits n, h, Nat.ofDigitChars_ten_toDigits]

/-- A number with no fewer digits is at least as large. -/
theorem le_of_digits {n m : ℕ} (h : Nat.toDigits 10 n <+: Nat.toDigits 10 m) : n ≤ m := by
  by_contra hlt
  have hlt : m < n := Nat.lt_of_not_le hlt
  have hpos : 0 < (Nat.toDigits 10 n).length := Nat.length_toDigits_pos
  -- a smaller number has no more digits, so that both have the same
  have hshort : (Nat.toDigits 10 m).length ≤ (Nat.toDigits 10 n).length := by
    rw [Nat.length_toDigits_le_iff (by decide) hpos]
    exact Nat.lt_trans hlt ((Nat.length_toDigits_le_iff (by decide) hpos).mp (Nat.le_refl _))
  have hsame : Nat.toDigits 10 n = Nat.toDigits 10 m :=
    h.eq_of_length (Nat.le_antisymm h.length_le hshort)
  exact Nat.ne_of_gt hlt (toDigits_injective hsame)

/-! ### Names -/

theorem numbered_injective (stem : String) : Function.Injective (numbered stem) := by
  intro n m h
  have hlist := congrArg String.toList h
  rw [toList_numbered, toList_numbered] at hlist
  exact toDigits_injective (List.append_cancel_left hlist)

/-- The digits of a name that is part of another begin those of the other, if the stem
begins with a character that occurs in no other place of the names. -/
theorem digits_of_part {stem : String} {c : Char} {rest : List Char}
    (hstem : stem.toList = c :: rest) (hrest : c ∉ rest) (hdigit : c.isDigit = false) {n m : ℕ}
    (h : IsPart (numbered stem n) (numbered stem m)) :
    Nat.toDigits 10 n <+: Nat.toDigits 10 m := by
  obtain ⟨before, after, heq⟩ := h
  rw [toList_numbered, toList_numbered, hstem] at heq
  cases before with
  | nil =>
    refine ⟨after, ?_⟩
    simpa using heq
  | cons x before =>
    -- the first character would occur again
    have htail :
        before ++ (c :: rest ++ Nat.toDigits 10 n) ++ after = rest ++ Nat.toDigits 10 m := by
      simpa using (List.cons.inj heq).2
    have hmem : c ∈ rest ++ Nat.toDigits 10 m := by
      rw [← htail]
      simp
    rcases List.mem_append.mp hmem with hin | hin
    · exact absurd hin hrest
    · have hc : c.isDigit = true := Nat.isDigit_of_mem_toDigits (by decide) (by decide) hin
      rw [hdigit] at hc
      exact absurd hc Bool.false_ne_true

/-- **A name is part of one with a number at least as large only.** -/
theorem le_of_part {stem : String} {c : Char} {rest : List Char} (hstem : stem.toList = c :: rest)
    (hrest : c ∉ rest) (hdigit : c.isDigit = false) {n m : ℕ}
    (h : IsPart (numbered stem n) (numbered stem m)) : n ≤ m :=
  le_of_digits (digits_of_part hstem hrest hdigit h)

/-- **A name is part of itself, and else of one with ten times its number at least.** -/
theorem ten_mul_le_of_part {stem : String} {c : Char} {rest : List Char}
    (hstem : stem.toList = c :: rest) (hrest : c ∉ rest) (hdigit : c.isDigit = false) {n m : ℕ}
    (h : IsPart (numbered stem n) (numbered stem m)) (hne : n ≠ m) : 10 * n ≤ m := by
  obtain ⟨more, hmore⟩ := digits_of_part hstem hrest hdigit h
  have hvalue := congrArg (fun ds => Nat.ofDigitChars 10 ds 0) hmore
  simp only [Nat.ofDigitChars_append, Nat.ofDigitChars_ten_toDigits] at hvalue
  cases more with
  | nil => exact absurd hvalue hne
  | cons d more =>
    rw [Nat.ofDigitChars_eq_ofDigitChars_zero, List.length_cons] at hvalue
    have hpow : 10 ≤ 10 ^ (more.length + 1) := by
      rw [Nat.pow_succ]
      exact Nat.le_mul_of_pos_left 10 (Nat.pow_pos (by decide))
    calc 10 * n ≤ 10 ^ (more.length + 1) * n := Nat.mul_le_mul_right n hpow
      _ ≤ m := by omega

/-- The name of ten times the number has the name in it. -/
theorem part_ten_mul (stem : String) {n : ℕ} (hn : 1 ≤ n) :
    IsPart (numbered stem n) (numbered stem (10 * n)) := by
  have hdigits := @Nat.toDigits_append_toDigits 10 n 0 (by decide) hn (by decide)
  rw [Nat.add_zero] at hdigits
  refine ⟨[], Nat.toDigits 10 0, ?_⟩
  rw [toList_numbered, toList_numbered, ← hdigits, List.nil_append, List.append_assoc]

theorem mem_firstNames {stem : String} {n : ℕ} {name : String} :
    name ∈ firstNames stem n ↔ ∃ k, 1 ≤ k ∧ k ≤ n ∧ numbered stem k = name := by
  rw [firstNames, List.mem_map]
  constructor
  · rintro ⟨k, hk, rfl⟩
    exact ⟨k + 1, Nat.succ_le_succ (Nat.zero_le k), List.mem_range.mp hk, rfl⟩
  · rintro ⟨k, hpos, hle, rfl⟩
    refine ⟨k - 1, List.mem_range.mpr (by omega), ?_⟩
    rw [Nat.sub_add_cancel hpos]

@[simp] theorem length_firstNames (stem : String) (n : ℕ) : (firstNames stem n).length = n := by
  rw [firstNames, List.length_map, List.length_range]

theorem firstNames_succ (stem : String) (n : ℕ) :
    firstNames stem (n + 1) = firstNames stem n ++ [numbered stem (n + 1)] := by
  rw [firstNames, List.range_succ, List.map_append]
  rfl
