import Mathlib.Data.Char
import Mathlib.Data.Nat.Notation
import Mathlib.Logic.Relation

/-!
# Runs of digits and their leading zeros

A run of digits of a text stands between characters that are not digits.  Dropping a
leading zero of a run, as long as a digit is left, does not change its value, and when no
leading zero is left the run is the decimal numeral of its value.

## Main definitions

* `OpenEnd`, `OpenStart` — the text does not end in a digit, or begin with one.
* `IsRun r` — a digit or more.
* `value r` — the number a run of digits stands for.
* `DropsZero a b` — a leading zero is dropped from a run of `a`.

## Main results

* `drops_run` — **dropping leading zeros a run becomes the numeral of its value.**
* `Drops.append_left` — zeros can be dropped further on in a text.
-/

namespace Decimal

open Relation

/-- The text does not end in a digit. -/
def OpenEnd (p : List Char) : Prop := p.getLast?.any Char.isDigit = false

/-- The text does not begin with a digit. -/
def OpenStart (s : List Char) : Prop := s.head?.any Char.isDigit = false

instance (p : List Char) : Decidable (OpenEnd p) := inferInstanceAs (Decidable (_ = _))

instance (s : List Char) : Decidable (OpenStart s) := inferInstanceAs (Decidable (_ = _))

/-- A run of digits. -/
structure IsRun (r : List Char) : Prop where
  ne_nil : r ≠ []
  digits : r.all Char.isDigit = true

/-- The number a run of digits stands for. -/
def value (r : List Char) : ℕ := Nat.ofDigitChars 10 r 0

/-- A zero that begins a run of digits, and is followed by another digit, is dropped. -/
def DropsZero (a b : List Char) : Prop :=
  ∃ x d y, OpenEnd x ∧ Char.isDigit d = true ∧ a = x ++ '0' :: d :: y ∧ b = x ++ d :: y

/-- Some leading zeros are dropped. -/
abbrev Drops : List Char → List Char → Prop := ReflTransGen DropsZero

/-! ### Numerals -/

theorem digitChar_of_isDigit {c : Char} (h : c.isDigit = true) :
    Nat.digitChar (c.toNat - 48) = c := by
  obtain ⟨hlo, hhi⟩ := Char.isDigit_iff_toNat.mp h
  have hlo' : 48 ≤ c.toNat := hlo
  have hhi' : c.toNat ≤ 57 := hhi
  apply Char.toNat_inj.mp
  rw [Nat.toNat_digitChar_of_lt_ten (by omega)]
  omega

/-- Digits behind a positive number are those of the numeral they make with it. -/
theorem toDigits_append {cs : List Char} (h : cs.all Char.isDigit = true) {n : ℕ} (hn : 0 < n) :
    Nat.toDigits 10 n ++ cs = Nat.toDigits 10 (Nat.ofDigitChars 10 cs n) := by
  induction cs generalizing n with
  | nil => rw [List.append_nil, Nat.ofDigitChars_nil]
  | cons c cs ih =>
    obtain ⟨hc, hcs⟩ := Bool.and_eq_true_iff.mp h
    have hlt : c.toNat - 48 < 10 := by
      have hhi : c.toNat ≤ 57 := (Char.isDigit_iff_toNat.mp hc).2
      omega
    have hdigit : Nat.toDigits 10 n ++ [c] = Nat.toDigits 10 (10 * n + (c.toNat - 48)) := by
      have hnext := Nat.toDigits_append_toDigits (by decide : 1 < 10) hn hlt
      rwa [Nat.toDigits_of_lt_base hlt, digitChar_of_isDigit hc] at hnext
    calc Nat.toDigits 10 n ++ c :: cs
        = (Nat.toDigits 10 n ++ [c]) ++ cs := by simp
      _ = Nat.toDigits 10 (10 * n + (c.toNat - 48)) ++ cs := by rw [hdigit]
      _ = Nat.toDigits 10 (Nat.ofDigitChars 10 cs (10 * n + (c.toNat - 48))) := ih hcs (by omega)
      _ = Nat.toDigits 10 (Nat.ofDigitChars 10 (c :: cs) n) := by rw [Nat.ofDigitChars_cons]; rfl

/-- A run that does not begin with a zero is the numeral of its value. -/
theorem toDigits_value {c : Char} {cs : List Char} (h : (c :: cs).all Char.isDigit = true)
    (hc : c ≠ '0') : Nat.toDigits 10 (value (c :: cs)) = c :: cs := by
  obtain ⟨hdigit, hcs⟩ := Bool.and_eq_true_iff.mp h
  obtain ⟨hlo, hhi⟩ := Char.isDigit_iff_toNat.mp hdigit
  have hlo' : 48 ≤ c.toNat := hlo
  have hhi' : c.toNat ≤ 57 := hhi
  have hne : c.toNat ≠ 48 := fun heq => hc (Char.toNat_inj.mp heq)
  have hfirst : Nat.toDigits 10 (c.toNat - 48) = [c] := by
    rw [Nat.toDigits_of_lt_base (by omega), digitChar_of_isDigit hdigit]
  have happend := toDigits_append hcs (n := c.toNat - 48) (by omega)
  rw [hfirst] at happend
  rw [value, Nat.ofDigitChars_cons, Nat.mul_zero, Nat.zero_add]
  exact happend.symm

/-- A leading zero has no value. -/
theorem value_zero_cons (r : List Char) : value ('0' :: r) = value r := by
  rw [value, Nat.ofDigitChars_cons]
  rfl

/-! ### Dropping zeros -/

theorem openEnd_nil : OpenEnd [] := rfl

theorem openStart_nil : OpenStart [] := rfl

theorem openStart_cons {c : Char} {cs : List Char} : OpenStart (c :: cs) ↔ c.isDigit = false := by
  simp [OpenStart]

theorem openEnd_of_all {p : List Char} (h : p.all (fun c => !c.isDigit) = true) : OpenEnd p := by
  rw [OpenEnd, Option.any_eq_false]
  intro c hc
  have hnot := List.all_eq_true.mp h c (List.mem_of_getLast? hc)
  simpa using hnot

/-- **Dropping leading zeros a run becomes the numeral of its value.** -/
theorem drops_run {p r : List Char} (hp : OpenEnd p) (hr : IsRun r) (s : List Char) :
    Drops (p ++ r ++ s) (p ++ Nat.toDigits 10 (value r) ++ s) := by
  obtain ⟨hne, hdigits⟩ := hr
  induction r with
  | nil => exact absurd rfl hne
  | cons c cs ih =>
    by_cases hc : c = '0'
    · subst hc
      cases cs with
      | nil => exact ReflTransGen.refl
      | cons d cs =>
        -- the zero is dropped, and the run goes on with another digit
        obtain ⟨-, hrest⟩ := Bool.and_eq_true_iff.mp hdigits
        have hd : d.isDigit = true := (Bool.and_eq_true_iff.mp hrest).1
        rw [value_zero_cons]
        refine ReflTransGen.head ⟨p, d, cs ++ s, hp, hd, by simp, rfl⟩ ?_
        have hdropped := ih (List.cons_ne_nil d cs) hrest
        simpa using hdropped
    · rw [toDigits_value hdigits hc]

/-- Dropping a zero leaves the beginning as it is, if that is not a digit. -/
theorem DropsZero.append_left {q a b : List Char} (ha : OpenStart a) (h : DropsZero a b) :
    OpenStart b ∧ DropsZero (q ++ a) (q ++ b) := by
  obtain ⟨x, d, y, hx, hd, rfl, rfl⟩ := h
  cases x with
  | nil =>
    have hzero : Char.isDigit '0' = false := openStart_cons.mp ha
    exact absurd hzero (by decide)
  | cons c x =>
    refine ⟨openStart_cons.mpr (openStart_cons.mp ha), q ++ c :: x, d, y, ?_, hd, ?_, ?_⟩
    · have hlast : (q ++ c :: x).getLast? = (c :: x).getLast? := by
        rw [List.getLast?_append, List.getLast?_cons, Option.some_or]
      rwa [OpenEnd, hlast]
    · simp
    · simp

/-- Zeros can be dropped further on in a text. -/
theorem Drops.append_left {a b : List Char} (h : Drops a b) (ha : OpenStart a) (q : List Char) :
    Drops (q ++ a) (q ++ b) := by
  induction h using ReflTransGen.head_induction_on with
  | refl => exact ReflTransGen.refl
  | head hdrop _ ih =>
    obtain ⟨hstart, happend⟩ := hdrop.append_left ha
    exact ReflTransGen.head happend (ih hstart)

end Decimal
