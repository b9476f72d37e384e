import Mathlib.Logic.Relation
import BkPlatform.Lib.Decimal
import BkPlatform.Mysql.ScaleDown

/-!
# The order of the names

A key is the name cut into text and numbers in turn, a text first and last, either of which may
be empty.  So strings stand at the even positions of every key and numbers at the odd ones, and a
comparison never meets one of each.

## Main definitions

* `IsText` — a member of a key is a string.
* `SameName` — two names differ in leading zeros of runs of digits at most.
* `render` — the text a key stands for.

## Main results

* `isText_iff_even` — where the strings of a key stand.
* `splitDigits_run` — what is in front of a run of digits, and behind it, is cut by itself.
* `naturalKeys_order` — **the order of the names is well defined**, it overlooks leading zeros
  and nothing else, and sorts runs of digits by their values.
-/

namespace BkPlatform.Mysql

open Decimal Relation

/-! ### Cutting a name -/

/-- Whether the piece at a position consists of digits, if the first one does or does not. -/
def pieceKind (inDigits : Bool) (i : ℕ) : Bool := if i % 2 = 0 then inDigits else !inDigits

theorem pieceKind_succ (inDigits : Bool) (i : ℕ) :
    pieceKind inDigits (i + 1) = pieceKind (!inDigits) i := by
  unfold pieceKind
  rcases Nat.mod_two_eq_zero_or_one i with h | h
  · have hnext : (i + 1) % 2 = 1 := by omega
    simp [h, hnext]
  · have hnext : (i + 1) % 2 = 0 := by omega
    simp [h, hnext]

theorem splitDigits_ne_nil (inDigits : Bool) (cs : List Char) : splitDigits inDigits cs ≠ [] := by
  induction cs generalizing inDigits with
  | nil => cases inDigits <;> simp [splitDigits]
  | cons c cs ih =>
    rw [splitDigits]
    split
    · simpa using ih inDigits
    · exact List.cons_ne_nil _ _

/-- At the end there are only empty pieces, of which none but the first is one of digits. -/
theorem splitDigits_nil_piece {inDigits : Bool} {i : ℕ} {piece : List Char}
    (h : (splitDigits inDigits [])[i]? = some piece) :
    piece = [] ∧ (0 < i → pieceKind inDigits i = false) := by
  cases inDigits with
  | false =>
    cases i with
    | zero => exact ⟨by simpa [splitDigits, eq_comm] using h, fun hi => absurd hi (by decide)⟩
    | succ i => simp [splitDigits] at h
  | true =>
    match i with
    | 0 => exact ⟨by simpa [splitDigits, eq_comm] using h, fun hi => absurd hi (by decide)⟩
    | 1 => exact ⟨by simpa [splitDigits, eq_comm] using h, fun _ => rfl⟩
    | i + 2 => simp [splitDigits] at h

/-- The pieces are text and digits in turn, and digits behind the first piece are not empty. -/
theorem splitDigits_pieces (inDigits : Bool) (cs : List Char) {i : ℕ} {piece : List Char}
    (h : (splitDigits inDigits cs)[i]? = some piece) :
    (piece.all fun c => c.isDigit == pieceKind inDigits i) = true ∧
      (0 < i → pieceKind inDigits i = true → piece ≠ []) := by
  induction cs generalizing inDigits i piece with
  | nil =>
    obtain ⟨rfl, hkind⟩ := splitDigits_nil_piece h
    refine ⟨rfl, fun hi hdigits => ?_⟩
    rw [hkind hi] at hdigits
    cases hdigits
  | cons c cs ih =>
    obtain ⟨first, rest, hsplit⟩ := List.exists_cons_of_ne_nil (splitDigits_ne_nil inDigits cs)
    obtain ⟨first', rest', hsplit'⟩ :=
      List.exists_cons_of_ne_nil (splitDigits_ne_nil (!inDigits) cs)
    rw [splitDigits] at h
    split at h
    · next hc =>
      -- the character belongs to the first piece
      rw [hsplit, List.modifyHead_cons] at h
      cases i with
      | zero =>
        obtain rfl : c :: first = piece := by simpa using h
        have hfirst := (@ih inDigits 0 first (by rw [hsplit]; rfl)).1
        exact ⟨by simpa [pieceKind, hc] using hfirst, fun hi => absurd hi (by decide)⟩
      | succ i => exact ih inDigits (by rw [hsplit]; exact h)
    · next hc =>
      -- a piece of the other kind begins
      have hother : c.isDigit = !inDigits := by
        cases inDigits <;> simpa using hc
      rw [hsplit', List.modifyHead_cons] at h
      match i with
      | 0 =>
        obtain rfl : [] = piece := by simpa using h
        exact ⟨rfl, fun hi => absurd hi (by decide)⟩
      | 1 =>
        obtain rfl : c :: first' = piece := by simpa using h
        have hfirst := (@ih (!inDigits) 0 first' (by rw [hsplit']; rfl)).1
        refine ⟨?_, fun _ _ => List.cons_ne_nil _ _⟩
        rw [pieceKind_succ]
        simpa [pieceKind, hother] using hfirst
      | i + 2 =>
        rw [pieceKind_succ]
        have hrest := @ih (!inDigits) (i + 1) piece (by rw [hsplit']; exact h)
        exact ⟨hrest.1, fun _ => hrest.2 (Nat.succ_pos i)⟩

/-- Text is a part of the first piece. -/
theorem splitDigits_append {inDigits : Bool} {t : List Char}
    (ht : (t.all fun c => c.isDigit == inDigits) = true) (cs : List Char) :
    splitDigits inDigits (t ++ cs) = (splitDigits inDigits cs).modifyHead (t ++ ·) := by
  induction t with
  | nil =>
    obtain ⟨first, rest, hsplit⟩ := List.exists_cons_of_ne_nil (splitDigits_ne_nil inDigits cs)
    rw [List.nil_append, hsplit]
    rfl
  | cons c t ih =>
    obtain ⟨hc, hrest⟩ := Bool.and_eq_true_iff.mp ht
    obtain ⟨first, rest, hsplit⟩ := List.exists_cons_of_ne_nil (splitDigits_ne_nil inDigits cs)
    rw [List.cons_append, splitDigits, if_pos (by simpa using hc), ih hrest, hsplit]
    rfl

/-- Where a run of digits has ended. -/
theorem splitDigits_true {s : List Char} (hs : OpenStart s) :
    splitDigits true s = [] :: splitDigits false s := by
  cases s with
  | nil => rfl
  | cons c s =>
    have hc : c.isDigit = false := openStart_cons.mp hs
    simp [splitDigits, hc]

/-- What is in front of a run of digits, read in text or in the middle of a run. -/
theorem splitDigits_append_run {p r s : List Char} (hp : OpenEnd p) (hr : IsRun r)
    (hs : OpenStart s) {inDigits : Bool} (htext : p = [] → inDigits = false) :
    splitDigits inDigits (p ++ r ++ s) = splitDigits inDigits p ++ r :: splitDigits false s := by
  induction p generalizing inDigits with
  | nil =>
    obtain rfl := htext rfl
    obtain ⟨c, r', rfl⟩ := List.exists_cons_of_ne_nil hr.ne_nil
    obtain ⟨hc, hdigits⟩ := Bool.and_eq_true_iff.mp hr.digits
    have hrun : (r'.all fun c => c.isDigit == true) = true := by simpa using hdigits
    show splitDigits false (c :: (r' ++ s)) = [] :: (c :: r') :: splitDigits false s
    rw [splitDigits, if_neg (by simp [hc])]
    simp only [Bool.not_false]
    rw [splitDigits_append hrun, splitDigits_true hs]
    simp
  | cons c p ih =>
    have hrest : OpenEnd p ∧ (p = [] → c.isDigit = false) := by
      cases p with
      | nil => exact ⟨openEnd_nil, fun _ => by simpa [OpenEnd] using hp⟩
      | cons d p => exact ⟨by simpa [OpenEnd] using hp, fun h => absurd h (List.cons_ne_nil d p)⟩
    obtain ⟨first, rest, hsplit⟩ := List.exists_cons_of_ne_nil (splitDigits_ne_nil inDigits p)
    obtain ⟨first', rest', hsplit'⟩ :=
      List.exists_cons_of_ne_nil (splitDigits_ne_nil (!inDigits) p)
    show splitDigits inDigits (c :: (p ++ r ++ s)) = _
    rw [splitDigits, splitDigits]
    by_cases hc : c.isDigit = inDigits
    · have htext' : p = [] → inDigits = false := fun h => hc.symm.trans (hrest.2 h)
      rw [if_pos hc, if_pos hc, ih hrest.1 htext', hsplit]
      rfl
    · have htext' : p = [] → (!inDigits) = false := by
        intro h
        have hdigit := hrest.2 h
        cases inDigits with
        | false => exact absurd hdigit hc
        | true => rfl
      rw [if_neg hc, if_neg hc, ih hrest.1 htext', hsplit']
      rfl

/-- **What is in front of a run of digits, and behind it, is cut by itself.** -/
theorem splitDigits_run {p r s : List Char} (hp : OpenEnd p) (hr : IsRun r) (hs : OpenStart s) :
    splitDigits false (p ++ r ++ s) = splitDigits false p ++ r :: splitDigits false s :=
  splitDigits_append_run hp hr hs fun _ => rfl

/-! ### Keys -/

/-- A member of a key is a string. -/
def IsText (key : ℕ ⊕ₗ List Char) : Prop := ∃ text, key = toLex (.inr text)

theorem atoi_text {text : List Char} (h : text.all (fun c => !c.isDigit) = true) :
    atoi text = toLex (.inr text) := by
  refine if_neg fun ⟨hne, hall⟩ => ?_
  obtain ⟨c, hc⟩ := List.exists_mem_of_ne_nil text hne
  have hdigit := List.all_eq_true.mp hall c hc
  have hnot := List.all_eq_true.mp h c hc
  rw [hdigit] at hnot
  exact absurd hnot (by decide)

theorem atoi_run {r : List Char} (h : IsRun r) : atoi r = toLex (.inl (value r)) :=
  if_pos ⟨h.ne_nil, h.digits⟩

/-- **Strings stand at the even positions of a key, and numbers at the odd ones.** -/
theorem isText_iff_even {text : String} {i : ℕ} {key : ℕ ⊕ₗ List Char}
    (h : (naturalKeys text)[i]? = some key) :
    (i % 2 = 0 → IsText key) ∧ (i % 2 = 1 → ∃ n : ℕ, key = toLex (.inl n)) := by
  rw [naturalKeys, List.getElem?_map, Option.map_eq_some_iff] at h
  obtain ⟨piece, hpiece, rfl⟩ := h
  obtain ⟨hall, hne⟩ := splitDigits_pieces false text.toList hpiece
  constructor
  · intro hi
    rw [pieceKind, if_pos hi] at hall
    exact ⟨piece, atoi_text (by simpa using hall)⟩
  · intro hi
    have hkind : pieceKind false i = true := by simp [pieceKind, hi]
    rw [hkind] at hall
    exact ⟨_, atoi_run ⟨hne (by omega) hkind, by simpa using hall⟩⟩

/-- The key of a list of characters. -/
def keysOf (cs : List Char) : List (ℕ ⊕ₗ List Char) := (splitDigits false cs).map atoi

theorem keysOf_run {p r s : List Char} (hp : OpenEnd p) (hr : IsRun r) (hs : OpenStart s) :
    keysOf (p ++ r ++ s) = keysOf p ++ toLex (.inl (value r)) :: keysOf s := by
  rw [keysOf, splitDigits_run hp hr hs, List.map_append, List.map_cons, atoi_run hr]
  rfl

theorem keysOf_text {t : List Char} (ht : t.all (fun c => !c.isDigit) = true) :
    keysOf t = [toLex (.inr t)] := by
  have hsplit := @splitDigits_append false t (by simpa using ht) []
  rw [List.append_nil] at hsplit
  rw [keysOf, hsplit]
  simp [splitDigits, atoi_text ht]

theorem exists_digits (cs : List Char) :
    ∃ r s, cs = r ++ s ∧ r.all Char.isDigit = true ∧ OpenStart s := by
  induction cs with
  | nil => exact ⟨[], [], rfl, rfl, openStart_nil⟩
  | cons c cs ih =>
    by_cases hc : c.isDigit = true
    · obtain ⟨r, s, rfl, hr, hs⟩ := ih
      exact ⟨c :: r, s, rfl, by simp [hc, hr], hs⟩
    · exact ⟨[], c :: cs, rfl, rfl, openStart_cons.mpr (by simpa using hc)⟩

/-- A text has no digits, or a first run of digits. -/
theorem exists_run (cs : List Char) :
    cs.all (fun c => !c.isDigit) = true ∨ ∃ p r s, cs = p ++ r ++ s ∧
      p.all (fun c => !c.isDigit) = true ∧ IsRun r ∧ OpenStart s := by
  induction cs with
  | nil => exact Or.inl rfl
  | cons c cs ih =>
    by_cases hc : c.isDigit = true
    · -- the run begins here
      obtain ⟨r, s, rfl, hr, hs⟩ := exists_digits cs
      exact Or.inr ⟨[], c :: r, s, rfl, rfl, ⟨List.cons_ne_nil c r, by simp [hc, hr]⟩, hs⟩
    · rcases ih with hall | ⟨p, r, s, rfl, hp, hr, hs⟩
      · exact Or.inl (by simp [hc, hall])
      · exact Or.inr ⟨c :: p, r, s, rfl, by simp [hc, hp], hr, hs⟩

/-! ### What a key tells -/

/-- The text a key stands for, its numbers without leading zeros. -/
def render (keys : List (ℕ ⊕ₗ List Char)) : List Char :=
  keys.flatMap fun key =>
    match ofLex key with
    | .inl n => Nat.toDigits 10 n
    | .inr text => text

/-- A name becomes the text of its key when leading zeros are dropped. -/
theorem drops_render (cs : List Char) : Drops cs (render (keysOf cs)) := by
  induction hn : cs.length using Nat.strong_induction_on generalizing cs with
  | _ n ih =>
    rcases exists_run cs with hall | ⟨p, r, s, rfl, hp, hr, hs⟩
    · rw [keysOf_text hall]
      simp [render, ReflTransGen.refl]
    · -- first the zeros of the first run, then those of the rest
      have hopen := openEnd_of_all hp
      have hlength : s.length < n := by
        have hpos := List.length_pos_iff.mpr hr.ne_nil
        simp only [List.length_append] at hn
        omega
      have hrender : render (keysOf (p ++ r ++ s)) =
          (p ++ Nat.toDigits 10 (value r)) ++ render (keysOf s) := by
        rw [keysOf_run hopen hr hs, keysOf_text hp]
        simp [render]
      rw [hrender]
      exact (drops_run hopen hr s).trans (Drops.append_left (ih _ hlength s rfl) hs _)

/-- A leading zero does not change the key. -/
theorem keysOf_of_dropsZero {a b : List Char} (h : DropsZero a b) : keysOf a = keysOf b := by
  obtain ⟨x, d, y, hx, hd, rfl, rfl⟩ := h
  obtain ⟨r, s, rfl, hr, hs⟩ := exists_digits y
  have hrun : IsRun (d :: r) := ⟨List.cons_ne_nil d r, by simp [hd, hr]⟩
  have hzero : IsRun ('0' :: d :: r) := ⟨List.cons_ne_nil _ _, by simp [hd, hr]⟩
  have hleft : x ++ '0' :: d :: (r ++ s) = x ++ ('0' :: d :: r) ++ s := by simp
  have hright : x ++ d :: (r ++ s) = x ++ (d :: r) ++ s := by simp
  rw [hleft, hright, keysOf_run hx hzero hs, keysOf_run hx hrun hs, value_zero_cons]

/-- Two names differ in leading zeros of runs of digits at most. -/
def SameName (a b : String) : Prop := EqvGen DropsZero a.toList b.toList

/-- **Names of equal keys are the same up to leading zeros.** -/
theorem naturalKeys_eq_iff (a b : String) : naturalKeys a = naturalKeys b ↔ SameName a b := by
  constructor
  · intro h
    have hkeys : keysOf a.toList = keysOf b.toList := h
    have ha := EqvGen.reflTransGen_le_eqvGen _ _ _ (drops_render a.toList)
    have hb := EqvGen.reflTransGen_le_eqvGen _ _ _ (drops_render b.toList)
    rw [hkeys] at ha
    exact ha.trans _ _ _ (hb.symm _ _)
  · intro h
    have hkeys : ∀ x y, EqvGen DropsZero x y → keysOf x = keysOf y := by
      intro x y hxy
      induction hxy with
      | rel x y hxy => exact keysOf_of_dropsZero hxy
      | refl x => rfl
      | symm x y _ ih => exact ih.symm
      | trans x y z _ _ hxy hyz => exact hxy.trans hyz
    exact hkeys a.toList b.toList h

/-- Behind the same text runs of digits are sorted by their values. -/
theorem naturalKeys_lt_of_value {p r₁ r₂ s₁ s₂ : String} (hp : OpenEnd p.toList)
    (hr₁ : IsRun r₁.toList) (hr₂ : IsRun r₂.toList) (hs₁ : OpenStart s₁.toList)
    (hs₂ : OpenStart s₂.toList) (h : value r₁.toList < value r₂.toList) :
    naturalKeys (p ++ r₁ ++ s₁) < naturalKeys (p ++ r₂ ++ s₂) := by
  have hkeys : ∀ r s : String, IsRun r.toList → OpenStart s.toList → naturalKeys (p ++ r ++ s) =
      keysOf p.toList ++ toLex (.inl (value r.toList)) :: keysOf s.toList := by
    intro r s hr hs
    show keysOf (p ++ r ++ s).toList = _
    rw [String.toList_append, String.toList_append, keysOf_run hp hr hs]
  rw [hkeys r₁ s₁ hr₁ hs₁, hkeys r₂ s₂ hr₂ hs₂]
  exact List.Lex.append_left _ (List.Lex.rel (Sum.Lex.inl_lt_inl_iff.mpr h)) _

/-- Two keys never put a string against a number. -/
theorem isText_iff_isText {a b : String} {i : ℕ} {x y : ℕ ⊕ₗ List Char}
    (hx : (naturalKeys a)[i]? = some x) (hy : (naturalKeys b)[i]? = some y) :
    IsText x ↔ IsText y := by
  have hxi := isText_iff_even hx
  have hyi := isText_iff_even hy
  rcases Nat.mod_two_eq_zero_or_one i with heven | hodd
  · exact iff_of_true (hxi.1 heven) (hyi.1 heven)
  · have hnumber : ∀ z : ℕ ⊕ₗ List Char, (∃ n : ℕ, z = toLex (.inl n)) → ¬ IsText z := by
      rintro z ⟨n, rfl⟩ ⟨text, htext⟩
      cases htext
    exact iff_of_false (hnumber x (hxi.2 hodd)) (hnumber y (hyi.2 hodd))

/-- **The order of the names is well defined.**  Every key has strings at the even positions and
numbers at the odd ones, so that two keys never put a string against a number; keys
are ordered, and any two of them; two names have equal keys iff they differ in leading
zeros at most; and behind a common text that does not end in a digit, runs of digits of different
values are sorted by these. -/
theorem naturalKeys_order :
    (∀ (text : String) (i : ℕ) (key : ℕ ⊕ₗ List Char), (naturalKeys text)[i]? = some key →
      (i % 2 = 0 → IsText key) ∧ (i % 2 = 1 → ∃ n : ℕ, key = toLex (.inl n))) ∧
    (∀ (a b : String) (i : ℕ) (x y : ℕ ⊕ₗ List Char), (naturalKeys a)[i]? = some x →
      (naturalKeys b)[i]? = some y → (IsText x ↔ IsText y)) ∧
    (∀ a b c : String, naturalKeys a ≤ naturalKeys a ∧
      (naturalKeys a ≤ naturalKeys b → naturalKeys b ≤ naturalKeys c →
        naturalKeys a ≤ naturalKeys c) ∧
      (naturalKeys a ≤ naturalKeys b ∨ naturalKeys b ≤ naturalKeys a)) ∧
    (∀ a b : String, naturalKeys a = naturalKeys b ↔ SameName a b) ∧
    (∀ p r₁ r₂ s₁ s₂ : String, OpenEnd p.toList → IsRun r₁.toList → IsRun r₂.toList →
      OpenStart s₁.toList → OpenStart s₂.toList → value r₁.toList < value r₂.toList →
        naturalKeys (p ++ r₁ ++ s₁) < naturalKeys (p ++ r₂ ++ s₂)) := by
  refine ⟨fun _ _ _ h => isText_iff_even h, fun _ _ _ _ _ hx hy => isText_iff_isText hx hy, ?_,
    naturalKeys_eq_iff, fun _ _ _ _ _ hp hr₁ hr₂ hs₁ hs₂ h => ?_⟩
  · intro a b c
    exact ⟨le_refl _, fun hab hbc => hab.trans hbc, le_total _ _⟩
  · exact naturalKeys_lt_of_value hp hr₁ hr₂ hs₁ hs₂ h

end BkPlatform.Mysql
