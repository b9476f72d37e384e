import Mathlib.Data.List.Basic
import Mathlib.Data.List.TakeWhile

/-!
# Patterns of characters and greedy runs

The regular expressions of a script that reads lines: single characters of a class, and
greedy runs of a class, one after the other.  A run takes as much as it can and gives back
one character at a time until the rest of the pattern fits; what the runs have taken is
what the groups of the expression can ask for.

## Main definitions

* `Piece` — a character of a class, or a run of a class.
* `capture ps cs` — what the runs take if the pattern fits at the start of `cs`.
* `Fits ps cs` — the pattern fits, whatever the runs take.

## Main results

* `capture_isSome` — backtracking finds a fit if there is one.
* `fits_map_one` — what a pattern without runs fits.
-/

namespace LinePattern

/-- A part of a pattern. -/
inductive Piece
  /-- A character of a class. -/
  | one (p : Char → Bool)
  /-- As many characters of a class as possible, but not less than `least`. -/
  | run (least : ℕ) (p : Char → Bool)

/-- The first of the lengths `n`, `n - 1`, … down to `least` that is good for something. -/
def longest {α : Type*} (f : ℕ → Option α) (least : ℕ) : ℕ → Option α
  | 0 => if least = 0 then f 0 else none
  | n + 1 => if least ≤ n + 1 then (f (n + 1)).or (longest f least n) else none

/-- What the runs take, one after the other, if the pattern fits here. -/
def capture : List Piece → List Char → Option (List (List Char))
  | [], _ => some []
  | .one p :: ps, cs =>
    match cs with
    | [] => none
    | c :: cs => if p c then capture ps cs else none
  | .run least p :: ps, cs =>
    longest (fun n => (capture ps (cs.drop n)).map fun taken => cs.take n :: taken) least
      (cs.takeWhile p).length

/-- The pattern fits here. -/
def Fits : List Piece → List Char → Prop
  | [], _ => True
  | .one p :: ps, cs => ∃ c rest, cs = c :: rest ∧ p c = true ∧ Fits ps rest
  | .run least p :: ps, cs =>
    ∃ taken rest, cs = taken ++ rest ∧ least ≤ taken.length ∧ (∀ c ∈ taken, p c = true) ∧
      Fits ps rest

theorem longest_isSome {α : Type*} {f : ℕ → Option α} {least n : ℕ} :
    (longest f least n).isSome = true ↔ ∃ k, least ≤ k ∧ k ≤ n ∧ (f k).isSome = true := by
  induction n with
  | zero =>
    rw [longest]
    split
    · next h => simp [h]
    · next h =>
      refine iff_of_false (by simp) ?_
      rintro ⟨k, hleast, hk, -⟩
      omega
  | succ n ih =>
    rw [longest]
    split
    · next h =>
      rw [Option.isSome_or, Bool.or_eq_true, ih]
      constructor
      · rintro (hf | ⟨k, hleast, hk, hf⟩)
        · exact ⟨n + 1, h, Nat.le_refl _, hf⟩
        · exact ⟨k, hleast, by omega, hf⟩
      · rintro ⟨k, hleast, hk, hf⟩
        rcases Nat.lt_or_ge n k with hlt | hle
        · obtain rfl : k = n + 1 := by omega
          exact Or.inl hf
        · exact Or.inr ⟨k, hleast, hle, hf⟩
    · next h =>
      refine iff_of_false (by simp) ?_
      rintro ⟨k, hleast, hk, -⟩
      omega

/-- The longest length that is good for something. -/
theorem longest_eq_some {α : Type*} {f : ℕ → Option α} {least n k : ℕ} {a : α} (hleast : least ≤ k)
    (hk : k ≤ n) (hf : f k = some a) (hlonger : ∀ j, k < j → j ≤ n → f j = none) :
    longest f least n = some a := by
  induction n with
  | zero =>
    obtain rfl : k = 0 := Nat.le_zero.mp hk
    rw [longest, if_pos (Nat.le_zero.mp hleast), hf]
  | succ n ih =>
    rw [longest, if_pos (Nat.le_trans hleast hk)]
    rcases Nat.lt_or_eq_of_le hk with hlt | rfl
    · rw [hlonger (n + 1) hlt (Nat.le_refl _), Option.none_or]
      exact ih (Nat.le_of_lt_succ hlt) fun j hj hjn => hlonger j hj (Nat.le_succ_of_le hjn)
    · rw [hf, Option.some_or]

/-- Characters that stand for themselves are followed by what the rest captures. -/
theorem capture_ones_append (s cs : List Char) (ps : List Piece) :
    capture ((s.map fun d => .one fun c => c == d) ++ ps) (s ++ cs) = capture ps cs := by
  induction s with
  | nil => rfl
  | cons c s ih =>
    rw [List.map_cons, List.cons_append, List.cons_append, capture, if_pos (beq_self_eq_true c), ih]

/-- A run takes a whole text of its class, if the rest of the pattern fits behind it. -/
theorem capture_run_all {least : ℕ} {p : Char → Bool} {ps : List Piece} {cs : List Char}
    {taken : List (List Char)} (hcs : ∀ c ∈ cs, p c = true) (hleast : least ≤ cs.length)
    (hrest : capture ps [] = some taken) :
    capture (.run least p :: ps) cs = some (cs :: taken) := by
  have hall : cs.takeWhile p = cs := List.takeWhile_eq_self_iff.mpr hcs
  rw [capture, hall]
  refine longest_eq_some hleast (Nat.le_refl _) ?_ fun j hj hjn => absurd hjn (Nat.not_le.mpr hj)
  rw [List.drop_length, hrest, List.take_length, Option.map_some]

/-- **Backtracking finds a fit if there is one.** -/
theorem capture_isSome {ps : List Piece} {cs : List Char} :
    (capture ps cs).isSome = true ↔ Fits ps cs := by
  induction ps generalizing cs with
  | nil => exact iff_of_true rfl trivial
  | cons piece ps ih =>
    cases piece with
    | one p =>
      cases cs with
      | nil => simp [capture, Fits]
      | cons c cs =>
        rw [capture]
        split
        · next hp => simp [Fits, hp, ih]
        · next hp => simp [Fits, hp]
    | run least p =>
      rw [capture, longest_isSome]
      constructor
      · rintro ⟨k, hleast, hk, hfits⟩
        have hlength : k ≤ cs.length := Nat.le_trans hk (List.takeWhile_sublist p).length_le
        rw [Option.isSome_map, ih] at hfits
        refine ⟨cs.take k, cs.drop k, (List.take_append_drop k cs).symm, by simp; omega, ?_, hfits⟩
        intro c hc
        have hstart : cs.take k = (cs.takeWhile p).take k := by
          conv_lhs => rw [← @List.takeWhile_append_dropWhile _ p cs]
          exact List.take_append_of_le_length hk
        rw [hstart] at hc
        exact List.all_eq_true.mp List.all_takeWhile c (List.mem_of_mem_take hc)
      · rintro ⟨taken, rest, rfl, hleast, hall, hfits⟩
        refine ⟨taken.length, hleast, ?_, ?_⟩
        · rw [List.takeWhile_append_of_pos hall, List.length_append]
          omega
        · rw [Option.isSome_map, ih, List.drop_left]
          exact hfits

/-- A pattern of single characters fits what has a character of each class. -/
theorem fits_map_one {ps : List (Char → Bool)} {cs : List Char} :
    Fits (ps.map Piece.one) cs ↔
      ∃ w rest, cs = w ++ rest ∧ List.Forall₂ (fun p c => p c = true) ps w := by
  induction ps generalizing cs with
  | nil => exact iff_of_true trivial ⟨[], cs, rfl, .nil⟩
  | cons p ps ih =>
    simp only [List.map_cons, Fits, ih]
    constructor
    · rintro ⟨c, _, rfl, hc, w, rest, rfl, hw⟩
      exact ⟨c :: w, rest, rfl, .cons hc hw⟩
    · rintro ⟨_, rest, rfl, hw⟩
      cases hw with
      | cons hc hw => exact ⟨_, _, rfl, hc, _, rest, rfl, hw⟩

/-- What every class of a pattern implies holds of what the pattern fits. -/
theorem forall_of_classes {ps : List (Char → Bool)} {w : List Char} {P : Char → Prop}
    (hw : List.Forall₂ (fun p c => p c = true) ps w) (h : ∀ p ∈ ps, ∀ c, p c = true → P c) :
    ∀ c ∈ w, P c := by
  induction hw with
  | nil => exact fun c hc => absurd hc List.not_mem_nil
  | cons hpc _ ih =>
    rw [List.forall_mem_cons] at h ⊢
    exact ⟨h.1 _ hpc, ih h.2⟩

end LinePattern
