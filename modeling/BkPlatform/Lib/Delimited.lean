import Mathlib.Data.List.Basic
import Mathlib.Data.Nat.Notation

/-!
# Names in quotes and texts up to a delimiter

Two readers of a statement.  A quoted name ends at its quote, and a doubled quote stands for one.
A part of a statement ends at the first delimiter that is neither in parentheses nor in quotes.
A text that is put where one of them reads is read as itself in two cases only: a name if there
is no quote in it, and a part of a statement if it closes what it opens and has no delimiter
outside.

## Main definitions

* `readName q text` — the name, and the text behind it.
* `Lex`, `readUntil stop lex text` — the part up to a delimiter, and the text from there on.
* `passes stop lex text` — the text has no delimiter and leaves nothing open.

## Main results

* `readName_eq_some_iff` — **when a name is read as itself.**
* `readUntil_eq_some_iff` — **when a part is read as itself.**
-/

namespace Delimited

/-- One character more. -/
def push (c : Char) : Option (List Char × List Char) → Option (List Char × List Char) :=
  Option.map fun r => (c :: r.1, r.2)

theorem push_eq_some {c : Char} {o : Option (List Char × List Char)} {t r : List Char}
    (h : push c o = some (t, r)) : ∃ t', o = some (t', r) ∧ t = c :: t' := by
  obtain ⟨⟨t', r'⟩, ho, heq⟩ := Option.map_eq_some_iff.mp h
  cases heq
  exact ⟨t', ho, rfl⟩

/-! ### Names -/

/-- The name that ends at its quote, read from behind the opening one. -/
def readName (q : Char) : List Char → Option (List Char × List Char)
  | [] => none
  | [c] => if c = q then some ([], []) else none
  | c :: d :: cs =>
    if c = q then if d = q then push q (readName q cs) else some ([], d :: cs)
    else push c (readName q (d :: cs))

theorem readName_cons {q c : Char} (h : c ≠ q) (cs : List Char) :
    readName q (c :: cs) = push c (readName q cs) := by
  cases cs with
  | nil => simp [readName, h, push]
  | cons d cs => simp [readName, h]

theorem readName_quote {q c : Char} (h : c ≠ q) (cs : List Char) :
    readName q (q :: c :: cs) = some ([], c :: cs) := by
  simp [readName, h]

theorem readName_quotes (q : Char) (cs : List Char) :
    readName q (q :: q :: cs) = push q (readName q cs) := by
  simp [readName]

/-- What is read begins with the first character, if that is not a quote. -/
theorem head_of_readName {q c : Char} (h : c ≠ q) {cs t r : List Char}
    (hread : readName q (c :: cs) = some (t, r)) : t.head? = some c := by
  rw [readName_cons h] at hread
  obtain ⟨t', -, rfl⟩ := push_eq_some hread
  rfl

/-- Quotes in front of a text are not read in front of it when they are not there. -/
theorem readName_ne_quotes {q c : Char} (hc : c ≠ q) {rest r : List Char} :
    ∀ (w : List Char) (k : ℕ),
      readName q (w ++ q :: c :: rest) ≠ some (List.replicate (k + 1) q ++ w, r)
  | [], k => by
    rw [List.nil_append, readName_quote hc]
    simp [List.replicate_succ]
  | [a], k => by
    intro h
    by_cases ha : a = q
    · subst ha
      rw [List.singleton_append, readName_quotes] at h
      obtain ⟨t', ht', heq⟩ := push_eq_some h
      have hhead := head_of_readName hc ht'
      have htail : List.replicate k a ++ [a] = t' := by simpa [List.replicate_succ] using heq
      rw [← htail] at hhead
      cases k <;> simp [List.replicate_succ] at hhead <;> exact hc hhead.symm
    · have hhead := head_of_readName ha h
      simp [List.replicate_succ] at hhead
      exact ha hhead.symm
  | a :: b :: w, k => by
    intro h
    by_cases ha : a = q
    · subst ha
      by_cases hb : b = a
      · subst hb
        rw [List.cons_append, List.cons_append, readName_quotes] at h
        obtain ⟨t', ht', heq⟩ := push_eq_some h
        have htail : t' = List.replicate (k + 1 + 1) b ++ w := by
          have hcons : t' = List.replicate k b ++ b :: b :: w := by
            simpa [List.replicate_succ] using heq.symm
          rw [hcons, List.replicate_succ', List.replicate_succ']
          simp
        rw [htail] at ht'
        exact readName_ne_quotes hc w (k + 1) ht'
      · rw [List.cons_append, List.cons_append, readName_quote hb] at h
        simp [List.replicate_succ] at h
    · have hhead := head_of_readName ha h
      simp [List.replicate_succ] at hhead
      exact ha hhead.symm

/-- **When a name is read as itself**: if there is no quote in it. -/
theorem readName_eq_some_iff {q c : Char} (hc : c ≠ q) {name rest r : List Char} :
    readName q (name ++ q :: c :: rest) = some (name, r) ↔ q ∉ name ∧ r = c :: rest := by
  induction name with
  | nil =>
    rw [List.nil_append, readName_quote hc]
    simp [eq_comm]
  | cons a name ih =>
    by_cases ha : a = q
    · -- a quote ends the name, or its double is read as one
      subst ha
      refine iff_of_false (fun h => ?_) (by simp)
      cases name with
      | nil =>
        rw [List.singleton_append, readName_quotes] at h
        obtain ⟨t', ht', heq⟩ := push_eq_some h
        obtain rfl : [] = t' := by simpa using heq
        exact absurd (head_of_readName hc ht') (by simp)
      | cons b name =>
        rw [List.cons_append, List.cons_append] at h
        by_cases hb : b = a
        · subst hb
          rw [readName_quotes] at h
          obtain ⟨t', ht', heq⟩ := push_eq_some h
          obtain rfl : b :: name = t' := by simpa using heq
          exact readName_ne_quotes hc name 0 ht'
        · rw [readName_quote hb] at h
          simp at h
    · have hstep : readName q (a :: (name ++ q :: c :: rest)) = some (a :: name, r) ↔
          readName q (name ++ q :: c :: rest) = some (name, r) := by
        rw [readName_cons ha]
        simp [push]
      rw [List.cons_append, hstep, ih]
      simp [Ne.symm ha]

/-! ### Parts of a statement -/

/-- Where a reader is: in how many parentheses, and in which quotes. -/
inductive Lex
  | plain (depth : ℕ)
  | quoted (depth : ℕ) (q : Char)
  | escaped (depth : ℕ) (q : Char)
  deriving DecidableEq, Repr

/-- One character.  A backslash escapes the next one in quotes that are not backticks. -/
def Lex.next : Lex → Char → Lex
  | plain depth, c =>
    if c = '\'' ∨ c = '"' ∨ c = '\x60' then quoted depth c
    else if c = '(' then plain (depth + 1)
    else if c = ')' then plain (depth - 1)
    else plain depth
  | quoted depth q, c =>
    if c = q then plain depth
    else if c = '\\' ∧ q ≠ '\x60' then escaped depth q
    else quoted depth q
  | escaped depth q, _ => quoted depth q

/-- The text up to the first delimiter outside of parentheses and quotes. -/
def readUntil (stop : Char → Bool) : Lex → List Char → Option (List Char × List Char)
  | _, [] => none
  | lex, c :: cs =>
    if lex = .plain 0 ∧ stop c then some ([], c :: cs) else push c (readUntil stop (lex.next c) cs)

/-- The text has no delimiter outside of parentheses and quotes, and leaves none of these open. -/
def passes (stop : Char → Bool) : Lex → List Char → Bool
  | lex, [] => lex = .plain 0
  | lex, c :: cs => !(decide (lex = .plain 0) && stop c) && passes stop (lex.next c) cs

/-- **When a part is read as itself.** -/
theorem readUntil_eq_some_iff {stop : Char → Bool} {lex : Lex} {t rest r : List Char} {c : Char}
    (hc : stop c = true) :
    readUntil stop lex (t ++ c :: rest) = some (t, r) ↔
      passes stop lex t = true ∧ r = c :: rest := by
  induction t generalizing lex with
  | nil =>
    rw [List.nil_append, readUntil, passes]
    by_cases hplain : lex = .plain 0
    · simp [hplain, hc, eq_comm]
    · simp [hplain, push]
  | cons a t ih =>
    rw [List.cons_append, readUntil, passes]
    by_cases hstop : lex = .plain 0 ∧ stop a = true
    · simp [hstop]
    · have hpass : (!(decide (lex = .plain 0) && stop a)) = true := by
        simpa [imp_iff_not_or] using hstop
      rw [if_neg hstop, hpass, Bool.true_and, ← ih]
      simp [push]

/-- A text that leaves nothing open does not change how the next one is read. -/
theorem passes_append {stop : Char → Bool} {lex : Lex} {a : List Char}
    (h : passes stop lex a = true) (b : List Char) :
    passes stop lex (a ++ b) = passes stop (.plain 0) b := by
  induction a generalizing lex with
  | nil =>
    obtain rfl : lex = .plain 0 := by simpa [passes] using h
    rfl
  | cons c a ih =>
    rw [passes, Bool.and_eq_true] at h
    rw [List.cons_append, passes, h.1, Bool.true_and, ih h.2]

/-- A reader takes the beginning of the text. -/
theorem append_of_readUntil {stop : Char → Bool} {lex : Lex} {text t r : List Char}
    (h : readUntil stop lex text = some (t, r)) : text = t ++ r := by
  induction text generalizing lex t with
  | nil => simp [readUntil] at h
  | cons c cs ih =>
    rw [readUntil] at h
    split at h
    · obtain ⟨rfl, rfl⟩ := Prod.mk.inj (Option.some.inj h)
      rfl
    · obtain ⟨t', ht', rfl⟩ := push_eq_some h
      rw [ih ht', List.cons_append]

end Delimited
