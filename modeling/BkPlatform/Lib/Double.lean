import Mathlib

/-!
# Signs of sums and differences of doubles

Lean's floats are the doubles of IEEE 754, with a model that says how their operations round.
The mantissa of a sum is shifted until it fits, and rounded.  A mantissa that is not zero stays
so, since no summand has an exponent below the least one: what rounds to zero is zero.  So a
difference is below zero exactly where the second number is the greater one.

## Main definitions

* `Fits` — mantissa and exponent of a number a format has.
* `NonNeg` — the number is zero or above.

## Main results

* `round_eq_finite` — **rounding a sum gives a number with its sign, never zero.**
* `zero_le_add` — sums of numbers from zero on are from zero on.
* `zero_le_sub_iff` — **a difference is from zero on exactly when the second number is finite and
  not the greater one.**
-/

namespace Double

open Float.Model (Format UnpackedFloat totalExponent)
open Float.Model.UnpackedFloat

variable {spec : Format} {m : ℕ} {e : ℤ}

/-! ### Rounding -/

/-- Mantissa and exponent of a number that the format has, but for a greatest exponent. -/
structure Fits (spec : Format) (m : ℕ) (e : ℤ) : Prop where
  pos : 0 < m
  lt : m < 2 ^ spec.mantissaBits
  le : spec.minExponent ≤ e

/-- The mantissa is as long as it can be. -/
structure Canonical (spec : Format) (m : ℕ) (e : ℤ) : Prop extends Fits spec m e where
  full : e = spec.minExponent ∨ 2 ^ spec.mantissaBitsWithoutImplicit ≤ m

theorem minExponent_eq (spec : Format) :
    spec.minExponent = 1 - (spec.exponentBias + spec.mantissaBitsWithoutImplicit) := by
  have hpos : 0 < 2 ^ (spec.exponentBits - 1) := Nat.two_pow_pos _
  have hcast : ((2 ^ (spec.exponentBits - 1) : ℕ) : ℤ) = 2 ^ (spec.exponentBits - 1) :=
    Int.natCast_pow 2 _
  simp only [Format.minExponent, Format.mantissaBits, Format.exponentBias]
  omega

theorem mantissa_shiftRight (em : ExtendedMantissa) (k : ℕ) :
    (em >>> k).mantissa = em.mantissa / 2 ^ k := by
  induction k with
  | zero => exact (Nat.div_one _).symm
  | succ k ih =>
    have hsucc : (em >>> (k + 1)).mantissa = (em >>> k).mantissa / 2 := rfl
    rw [hsucc, ih, Nat.div_div_eq_div_mul, pow_succ]

theorem le_roundedMantissa (em : ExtendedMantissa) : em.mantissa ≤ em.roundedMantissa := by
  obtain ⟨m, roundBit, stickyBit⟩ := em
  cases roundBit <;> cases stickyBit
  · exact le_rfl
  · exact le_rfl
  · exact Nat.le_add_right m (m % 2)
  · exact Nat.le_add_right m 1

theorem mantissa_ofMantissaAndAccuracy (m : ℕ) (accuracy : Accuracy) :
    (ExtendedMantissa.ofMantissaAndAccuracy m accuracy).mantissa = m := by
  rcases accuracy with _ | order
  · rfl
  · cases order <;> rfl

/-- **A shift to the target exponent keeps a bit of the mantissa.** -/
theorem fits_shift (hm : 0 < m) (he : spec.minExponent ≤ e) (accuracy : Accuracy) :
    Fits spec (shiftToTargetExponent spec m e accuracy).1.mantissa
      (shiftToTargetExponent spec m e accuracy).2 := by
  set k := (spec.targetExponent (totalExponent m e) - e).toNat with hk
  have hmantissa : (shiftToTargetExponent spec m e accuracy).1.mantissa = m / 2 ^ k := by
    simp only [shiftToTargetExponent, shiftToExponent, mantissa_shiftRight,
      mantissa_ofMantissaAndAccuracy, hk]
  have hexponent : (shiftToTargetExponent spec m e accuracy).2 = e + k := rfl
  have hbits : 0 < spec.mantissaBits := Nat.add_pos_left one_pos _
  simp only [Format.targetExponent, totalExponent] at hk
  -- the shift leaves the first bit of the mantissa, and no more bits than there is room for
  have hle : k ≤ m.log2 := by omega
  have hlog : m.log2 + 1 ≤ spec.mantissaBits + k := by omega
  rw [hmantissa, hexponent]
  refine ⟨Nat.div_pos ?_ (Nat.two_pow_pos k), ?_, by omega⟩
  · exact (Nat.pow_le_pow_right two_pos hle).trans (Nat.log2_self_le hm.ne')
  · rw [Nat.div_lt_iff_lt_mul (Nat.two_pow_pos k), ← pow_add]
    exact Nat.lt_log2_self.trans_le (Nat.pow_le_pow_right two_pos hlog)

/-- **Rounding gives a number with the same sign, never zero**, if the exponent is not below the
least one. -/
theorem round_eq_finite (s : Sign) (hm : 0 < m) (he : spec.minExponent ≤ e) :
    ∃ m' e' hm', UnpackedFloat.round spec s m e = .finite s m' e' hm' ∧ Fits spec m' e' := by
  set target := spec.targetExponent (totalExponent m e) with htarget
  have hdecreased : 0 < (decreaseExponent m e target).1 := by
    simp only [decreaseExponent, Nat.shiftLeft_eq]
    exact Nat.mul_pos hm (Nat.two_pow_pos _)
  have hexponent : spec.minExponent ≤ (decreaseExponent m e target).2 := by
    have hmin : spec.minExponent ≤ target := le_max_right _ _
    simp only [decreaseExponent]
    omega
  have hfirst := fits_shift hdecreased hexponent .exact
  have hsecond := fits_shift (hfirst.pos.trans_le (le_roundedMantissa _)) hfirst.le .exact
  refine ⟨_, _, hsecond.pos, ?_, hsecond⟩
  exact dif_neg hsecond.pos.ne'

/-! ### Signs -/

/-- The number is zero or above. -/
def NonNeg : UnpackedFloat → Prop
  | .notANumber => False
  | .infinity s => s = .positive
  | .zero _ => True
  | .finite s _ _ _ => s = .positive

/-- A number that the format has, but for a greatest exponent. -/
def FloatFits (spec : Format) : UnpackedFloat → Prop
  | .finite _ m e _ => Fits spec m e
  | _ => True

@[simp] theorem nonNeg_infinity (s : Sign) : NonNeg (.infinity s) ↔ s = .positive := Iff.rfl

@[simp] theorem nonNeg_zero (s : Sign) : NonNeg (.zero s) := trivial

@[simp] theorem nonNeg_finite (s : Sign) (m : ℕ) (e : ℤ) (hm : 0 < m) :
    NonNeg (.finite s m e hm) ↔ s = .positive := Iff.rfl

@[simp] theorem not_nonNeg_notANumber : ¬NonNeg .notANumber := id

/-- The sign of what is packed is its sign, except for zeros and what is no number. -/
theorem nonNeg_unpack_packComponents (s : Sign) (x : BitVec spec.exponentBits)
    (y : BitVec spec.mantissaBitsWithoutImplicit) :
    NonNeg (unpack spec (packComponents spec s x y)) ↔
      if x = -1#_ then y = 0#_ ∧ s = .positive else x = 0#_ ∧ y = 0#_ ∨ s = .positive := by
  simp only [unpack, unpackMantissa_packComponents, unpackExponent_packComponents,
    unpackSign_packComponents, Sign.ofBitVec_toBitVec]
  split_ifs <;> simp_all

/-- **Packing keeps the sign.** -/
theorem nonNeg_unpack_pack {f : UnpackedFloat} (h : FloatFits spec f) :
    NonNeg (unpack spec (pack spec f)) ↔ NonNeg f := by
  have hexponent : -BitVec.ofNat spec.exponentBits 1 ≠ 0#_ := by
    simp [BitVec.neg_one_eq_allOnes, BitVec.allOnes_eq_zero_iff, spec.he.ne']
  cases f with
  | notANumber => simp [pack]
  | infinity s =>
    simp [pack, packedInfinity, nonNeg_unpack_packComponents]
  | zero s => simp [pack]
  | finite s m e hm =>
    obtain ⟨-, hlt, hle⟩ : Fits spec m e := h
    have hbiased : 0 < (e + spec.exponentBias + spec.mantissaBitsWithoutImplicit).toNat := by
      have hmin := minExponent_eq spec
      omega
    simp only [pack]
    generalize (e + spec.exponentBias + spec.mantissaBitsWithoutImplicit).toNat = biased at *
    split_ifs with hover hnormal
    · simp [packedInfinity, nonNeg_unpack_packComponents]
    · -- The exponent is neither that of the subnormal numbers nor that of infinity.
      have hmod : biased % 2 ^ spec.exponentBits = biased := Nat.mod_eq_of_lt (by omega)
      have hsubnormal : BitVec.ofNat spec.exponentBits biased ≠ 0#_ := by
        intro heq
        have heq := congrArg BitVec.toNat heq
        rw [BitVec.toNat_ofNat, hmod] at heq
        exact hbiased.ne' (by simpa using heq)
      have hinfinity : BitVec.ofNat spec.exponentBits biased ≠ -1#_ := by
        intro heq
        have heq := congrArg BitVec.toNat heq
        rw [BitVec.toNat_ofNat, hmod, BitVec.neg_one_eq_allOnes, BitVec.toNat_allOnes] at heq
        omega
      simp [nonNeg_unpack_packComponents, hsubnormal, hinfinity]
    · have hmantissa : BitVec.ofNat spec.mantissaBitsWithoutImplicit m ≠ 0#_ := by
        intro heq
        have hmod := congrArg BitVec.toNat heq
        have hlog : m.log2 < spec.mantissaBitsWithoutImplicit := by
          have := (Nat.log2_lt hm.ne').mpr hlt
          simp only [Format.mantissaBits] at hnormal this
          omega
        rw [BitVec.toNat_ofNat, Nat.mod_eq_of_lt ((Nat.log2_lt hm.ne').mp hlog)] at hmod
        exact hm.ne' (by simpa using hmod)
      simp [nonNeg_unpack_packComponents, hexponent.symm, hmantissa]

/-! ### The order -/

theorem canonical_unpack {b : BitVec spec.numBits} {s : Sign} {hm : 0 < m}
    (h : unpack spec b = .finite s m e hm) : Canonical spec m e := by
  have hmin := minExponent_eq spec
  have hlt := (unpackMantissa b).isLt
  have hbits : 2 ^ spec.mantissaBits = 2 * 2 ^ spec.mantissaBitsWithoutImplicit := by
    rw [Format.mantissaBits, pow_add, pow_one]
  simp only [unpack] at h
  split_ifs at h with hinfinity hzero hsubnormal hzero
  · injection h with _ hm he
    rw [hsubnormal] at he
    simp only [BitVec.toNat_zero] at he
    exact ⟨⟨by omega, by omega, by omega⟩, Or.inl (by omega)⟩
  · injection h with _ hm he
    have hpos : 0 < (unpackExponent b).toNat := by
      rw [Nat.pos_iff_ne_zero]
      exact fun hzero => hsubnormal (BitVec.eq_of_toNat_eq (by simpa using hzero))
    have hone : (1#1).toNat = 1 := rfl
    rw [BitVec.toNat_append, hone, ← Nat.shiftLeft_add_eq_or_of_lt hlt,
      Nat.shiftLeft_eq] at hm
    exact ⟨⟨by omega, by omega, by omega⟩, Or.inr (by omega)⟩

/-- The mantissa of the number with the greater exponent is the longer one. -/
theorem lt_of_exponent_lt {m₁ m₂ : ℕ} {e₁ e₂ : ℤ} (h₁ : Fits spec m₁ e₁)
    (h₂ : Canonical spec m₂ e₂) (hlt : e₁ < e₂) : m₁ < m₂ * 2 ^ (e₂ - e₁).toNat := by
  have hfull : 2 ^ spec.mantissaBitsWithoutImplicit ≤ m₂ :=
    h₂.full.resolve_left fun heq => absurd h₁.le (by omega)
  have hshift : 2 ^ 1 ≤ 2 ^ (e₂ - e₁).toNat := Nat.pow_le_pow_right two_pos (by omega)
  calc m₁ < 2 ^ spec.mantissaBits := h₁.lt
    _ = 2 ^ spec.mantissaBitsWithoutImplicit * 2 ^ 1 := by
      rw [Format.mantissaBits, add_comm, pow_add]
    _ ≤ m₂ * 2 ^ (e₂ - e₁).toNat := Nat.mul_le_mul hfull hshift

/-- **Canonical numbers are ordered by their exponents first**: with the exponent of the lower
one, their mantissas stand in the same order. -/
theorem isLE_compare_iff {m₁ m₂ : ℕ} {e₁ e₂ : ℤ} (h₁ : Canonical spec m₁ e₁)
    (h₂ : Canonical spec m₂ e₂) :
    ((compare e₁ e₂).then (compare m₁ m₂)).isLE ↔
      (decreaseExponent m₁ e₁ (min e₁ e₂)).1 ≤ (decreaseExponent m₂ e₂ (min e₁ e₂)).1 := by
  simp only [Ordering.isLE_then_iff_or, compare_lt_iff_lt, compare_eq_iff_eq, decreaseExponent,
    Nat.shiftLeft_eq]
  rcases lt_trichotomy e₁ e₂ with hlt | rfl | hlt
  · have hmantissa := lt_of_exponent_lt h₁.toFits h₂ hlt
    simp only [min_eq_left hlt.le, sub_self, Int.toNat_zero, pow_zero, mul_one]
    exact iff_of_true (Or.inl hlt) hmantissa.le
  · simp [← compare_le_iff_le, Ordering.ne_gt_iff_isLE]
  · have hmantissa := lt_of_exponent_lt h₂.toFits h₁ hlt
    simp only [min_eq_right hlt.le, sub_self, Int.toNat_zero, pow_zero, mul_one]
    exact iff_of_false (by omega) hmantissa.not_ge

/-! ### Sums and differences -/

/-- A number as unpacking gives it. -/
def FloatCanonical (spec : Format) : UnpackedFloat → Prop
  | .finite _ m e _ => Canonical spec m e
  | _ => True

theorem floatCanonical_unpack (b : BitVec spec.numBits) :
    FloatCanonical spec (unpack spec b) := by
  cases h : unpack spec b with
  | finite s m e hm => exact canonical_unpack h
  | notANumber => trivial
  | infinity s => trivial
  | zero s => trivial

theorem FloatCanonical.fits {x : UnpackedFloat} (h : FloatCanonical spec x) :
    FloatFits spec x := by
  cases x with
  | finite s m e hm => exact Canonical.toFits h
  | notANumber => trivial
  | infinity s => trivial
  | zero s => trivial

/-- **Rounded, an integer keeps its sign.** -/
theorem nonNeg_normalize_iff (n : ℤ) (zeroSign : Sign) (he : spec.minExponent ≤ e) :
    FloatFits spec (UnpackedFloat.normalize spec n e zeroSign) ∧
      (NonNeg (UnpackedFloat.normalize spec n e zeroSign) ↔ 0 ≤ n) := by
  simp only [UnpackedFloat.normalize]
  split
  · rename_i hlt
    have hlt := compare_lt_iff_lt.mp hlt
    obtain ⟨m', e', hm', heq, hfits⟩ :=
      round_eq_finite .negative (Int.lt_toNat.mpr (by omega) : 0 < (-n).toNat) he
    rw [heq]
    exact ⟨hfits, iff_of_false nofun (by omega)⟩
  · rename_i heq
    have heq := compare_eq_iff_eq.mp heq
    exact ⟨trivial, iff_of_true trivial heq.ge⟩
  · rename_i hgt
    have hgt := compare_gt_iff_gt.mp hgt
    obtain ⟨m', e', hm', heq, hfits⟩ :=
      round_eq_finite .positive (Int.lt_toNat.mpr (by omega) : 0 < n.toNat) he
    rw [heq]
    exact ⟨hfits, iff_of_true rfl hgt.le⟩

variable {x y : UnpackedFloat}

/-- Numbers from zero on have a sum from zero on. -/
theorem nonNeg_add (hx : FloatCanonical spec x) (hy : FloatCanonical spec y) (hx₀ : NonNeg x)
    (hy₀ : NonNeg y) : FloatFits spec (add spec x y) ∧ NonNeg (add spec x y) := by
  cases x with
  | notANumber => exact hx₀.elim
  | infinity s =>
    obtain rfl : s = .positive := hx₀
    cases y with
    | notANumber => exact hy₀.elim
    | infinity t =>
      obtain rfl : t = .positive := hy₀
      exact ⟨trivial, rfl⟩
    | zero t => exact ⟨trivial, rfl⟩
    | finite t n f hn => exact ⟨trivial, rfl⟩
  | zero s =>
    cases y with
    | notANumber => exact hy₀.elim
    | infinity t => exact ⟨trivial, hy₀⟩
    | zero t =>
      simp only [add]
      split <;> exact ⟨trivial, trivial⟩
    | finite t n f hn => exact ⟨hy.fits, hy₀⟩
  | finite s m e hm =>
    cases y with
    | notANumber => exact hy₀.elim
    | infinity t => exact ⟨trivial, hy₀⟩
    | zero t => exact ⟨hx.fits, hx₀⟩
    | finite t n f hn =>
      obtain rfl : s = .positive := hx₀
      obtain rfl : t = .positive := hy₀
      have hmin : spec.minExponent ≤ min e f := le_min hx.le hy.le
      obtain ⟨hfits, hiff⟩ := nonNeg_normalize_iff ((decreaseExponent m e (min e f)).1 +
        (decreaseExponent n f (min e f)).1) .positive hmin
      exact ⟨hfits, hiff.mpr (by omega)⟩

/-- What is above zero. -/
theorem eq_of_zero_lt (h : UnpackedFloat.lt (.zero .positive) x) :
    x = .infinity .positive ∨ ∃ m e hm, x = .finite .positive m e hm := by
  cases x with
  | notANumber => exact absurd h (by decide)
  | infinity s =>
    cases s with
    | negative => exact absurd h (by decide)
    | positive => exact Or.inl rfl
  | zero s => exact absurd h (by cases s <;> decide)
  | finite s m e hm =>
    cases s with
    | negative => exact absurd h Bool.false_ne_true
    | positive => exact Or.inr ⟨m, e, hm, rfl⟩

/-- **The difference of numbers from zero on is from zero on exactly when the second is finite and
not the greater one**; the second is not zero. -/
theorem nonNeg_sub_iff (hx : FloatCanonical spec x) (hy : FloatCanonical spec y) (hx₀ : NonNeg x)
    (hy₀ : UnpackedFloat.lt (.zero .positive) y) :
    FloatFits spec (sub spec x y) ∧
      (NonNeg (sub spec x y) ↔ UnpackedFloat.le y x ∧ isFinite y) := by
  rcases eq_of_zero_lt hy₀ with rfl | ⟨n, f, hn, rfl⟩
  · -- Infinity leaves minus infinity, or no number.
    have hinfinite : ¬isFinite (.infinity .positive) = true := Bool.false_ne_true
    cases x with
    | notANumber => exact hx₀.elim
    | infinity s =>
      obtain rfl : s = .positive := hx₀
      exact ⟨trivial, iff_of_false id fun h => hinfinite h.2⟩
    | zero s => exact ⟨trivial, iff_of_false nofun fun h => hinfinite h.2⟩
    | finite s m e hm => exact ⟨trivial, iff_of_false nofun fun h => hinfinite h.2⟩
  · cases x with
    | notANumber => exact hx₀.elim
    | infinity s =>
      obtain rfl : s = .positive := hx₀
      exact ⟨trivial, iff_of_true rfl ⟨rfl, rfl⟩⟩
    | zero s => exact ⟨hy.fits, iff_of_false nofun fun h => Bool.false_ne_true h.1⟩
    | finite s m e hm =>
      obtain rfl : s = .positive := hx₀
      have hmin : spec.minExponent ≤ min e f := le_min hx.le hy.le
      obtain ⟨hfits, hiff⟩ := nonNeg_normalize_iff ((decreaseExponent m e (min e f)).1 -
        (decreaseExponent n f (min e f)).1) .positive hmin
      have hle : UnpackedFloat.le (.finite .positive n f hn) (.finite .positive m e hm) ↔
          (decreaseExponent n f (min e f)).1 ≤ (decreaseExponent m e (min e f)).1 := by
        rw [min_comm e f]
        exact isLE_compare_iff hy hx
      refine ⟨hfits, hiff.trans ?_⟩
      rw [hle, sub_nonneg, Int.ofNat_le]
      exact (and_iff_left rfl).symm

/-! ### Doubles -/

theorem le_iff (a b : Float) : a ≤ b ↔ UnpackedFloat.le a.toModel.unpack b.toModel.unpack :=
  decide_eq_true_iff

theorem lt_iff (a b : Float) : a < b ↔ UnpackedFloat.lt a.toModel.unpack b.toModel.unpack :=
  decide_eq_true_iff

theorem unpack_zero : (0 : Float).toModel.unpack = .zero .positive := rfl

theorem zero_le_iff (a : Float) : 0 ≤ a ↔ NonNeg a.toModel.unpack := by
  rw [le_iff, unpack_zero]
  cases a.toModel.unpack with
  | notANumber => exact iff_of_false Bool.false_ne_true id
  | infinity s =>
    cases s with
    | negative => exact iff_of_false Bool.false_ne_true nofun
    | positive => exact iff_of_true rfl rfl
  | zero s => exact iff_of_true rfl trivial
  | finite s m e hm =>
    cases s with
    | negative => exact iff_of_false Bool.false_ne_true nofun
    | positive => exact iff_of_true rfl rfl

theorem floatCanonical_toModel (a : Float) :
    FloatCanonical Format.binary64 a.toModel.unpack :=
  @floatCanonical_unpack Format.binary64 a.toModel.toBits.toBitVec

theorem zero_le_ofModel_pack {f : UnpackedFloat} (h : FloatFits Format.binary64 f) :
    0 ≤ Float.ofModel (Float.Model.pack f) ↔ NonNeg f := by
  rw [zero_le_iff]
  exact nonNeg_unpack_pack h

variable {a b : Float}

/-- **Doubles from zero on have a sum from zero on.** -/
theorem zero_le_add (ha : 0 ≤ a) (hb : 0 ≤ b) : 0 ≤ a + b := by
  obtain ⟨hfits, hnonneg⟩ := nonNeg_add (floatCanonical_toModel a)
    (floatCanonical_toModel b) ((zero_le_iff a).mp ha)
    ((zero_le_iff b).mp hb)
  exact (zero_le_ofModel_pack hfits).mpr hnonneg

theorem zero_le_of_zero_lt (h : 0 < a) : 0 ≤ a := by
  rw [zero_le_iff]
  rcases eq_of_zero_lt ((lt_iff 0 a).mp h) with heq | ⟨m, e, hm, heq⟩
  · rw [heq]
    exact rfl
  · rw [heq]
    exact rfl

/-- **The difference of a double from zero on and one above zero is from zero on exactly when the
second is finite and not the greater one.** -/
theorem zero_le_sub_iff (ha : 0 ≤ a) (hb : 0 < b) : 0 ≤ a - b ↔ b ≤ a ∧ b.isFinite := by
  obtain ⟨hfits, hiff⟩ := nonNeg_sub_iff (floatCanonical_toModel a)
    (floatCanonical_toModel b) ((zero_le_iff a).mp ha) ((lt_iff 0 b).mp hb)
  rw [le_iff b a]
  exact (zero_le_ofModel_pack hfits).trans hiff

end Double
