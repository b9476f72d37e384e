import Mathlib.Data.List.Basic
import Mathlib.Data.Nat.Notation

/-!
# String literals of SQL

How a server reads a string literal, from behind its opening quote on.  A doubled quote stands
for a quote, and a backslash is an ordinary character or escapes the next one, as the server is
set up.  A closing quote ends the literal, unless nothing but white space with a line break, in
which comments count as white space, comes between it and another quote: then the literal goes
on there.

A text in which quotes and backslashes are doubled is read up to its own closing quote under
both set-ups.

## Main definitions

* `Backslash` — what a backslash is.
* `resume` — where a literal goes on after a closing quote.
* `read` — the value of a literal, and the text behind it.
* `Continues` — a text that belongs to the literal in front of it.
* `doubled` — a text with some of its characters doubled.

## Main results

* `read_doubled` — what a doubled text is read as.
* `ends_iff` — **it is read up to its own closing quote exactly if what follows does not
  continue the literal.**
* `doubled_eq_iff` — when doubling changes nothing.
* `ne_keyword_doubled` — a text is not followed by its own literal behind a keyword.
-/

namespace SqlLiteral

/-! ### Reading a literal -/

/-- What a backslash in a literal is. -/
inductive Backslash
  /-- A character as any other. -/
  | ordinary
  /-- It escapes the next character, which then means what the function says. -/
  | escape (meaning : Char → Char)

/-- What an escaped character means, if this one escapes the next. -/
def Backslash.escaped (b : Backslash) (c : Char) (next : Option Char) : Option Char :=
  match b with
  | ordinary => none
  | escape meaning => if c = '\\' then next.map meaning else none

/-- How far the space between two parts of a literal has been read. -/
inductive Gap
  | line
  | nextLine
  | comment
  deriving DecidableEq, Repr

def isNewline (c : Char) : Bool := c == '\n' || c == '\r'

def isHorizontal (c : Char) : Bool := c == ' ' || c == '\t' || c == '\x0c'

/-- How many characters stand between a closing quote and the text of the next part, its opening
quote included, if the literal goes on. -/
def resume : Gap → List Char → Option ℕ
  | _, [] => none
  | .comment, c :: cs => (resume (if isNewline c then .nextLine else .comment) cs).map (· + 1)
  | gap, c :: cs =>
    if isNewline c then (resume .nextLine cs).map (· + 1)
    else if isHorizontal c then (resume gap cs).map (· + 1)
    else if c = '-' ∧ cs.head? = some '-' then (resume .comment cs).map (· + 1)
    else if c = '\'' ∧ gap = .nextLine then some 1
    else none

/-- One character more. -/
def push (c : Char) : Option (List Char × List Char) → Option (List Char × List Char) :=
  Option.map fun r => (c :: r.1, r.2)

/-- The value of a literal and the text behind it, read from behind the opening quote on;
`skip` characters have already been read. -/
def read (b : Backslash) : ℕ → List Char → Option (List Char × List Char)
  | _, [] => none
  | skip + 1, _ :: cs => read b skip cs
  | 0, c :: cs =>
    if c = '\'' then
      if cs.head? = some '\'' then push '\'' (read b 1 cs)
      else
        match resume .line cs with
        | some n => read b n cs
        | none => some ([], cs)
    else
      match b.escaped c cs.head? with
      | some d => push d (read b 1 cs)
      | none => push c (read b 0 cs)

/-- The text belongs to the literal in front of it. -/
def Continues (text : List Char) : Prop :=
  text.head? = some '\'' ∨ (resume .line text).isSome = true

instance (text : List Char) : Decidable (Continues text) := inferInstanceAs (Decidable (_ ∨ _))

variable {b : Backslash} {c : Char} {cs text : List Char}

@[simp] theorem read_nil (n : ℕ) : read b n [] = none := by cases n <;> rfl

@[simp] theorem read_succ (n : ℕ) : read b (n + 1) (c :: cs) = read b n cs := rfl

/-- The value of a literal and what is behind it are shorter than what they are read from. -/
theorem length_add_of_read {n : ℕ} {value : List Char} (h : read b n cs = some (value, text)) :
    value.length + text.length < cs.length := by
  induction cs generalizing n value with
  | nil =>
    rw [read_nil] at h
    cases h
  | cons c cs ih =>
    have hpush : ∀ {k d}, push d (read b k cs) = some (value, text) →
        value.length + text.length < (c :: cs).length := by
      intro k d hk
      obtain ⟨⟨v, t⟩, hr, hv⟩ := Option.map_eq_some_iff.mp hk
      obtain ⟨rfl, rfl⟩ := Prod.mk.inj hv
      have hlength : v.length + t.length < cs.length := ih hr
      simp only [List.length_cons]
      omega
    cases n with
    | succ n => exact Nat.lt_succ_of_lt (ih h)
    | zero =>
      rw [read] at h
      split at h
      · split at h
        · exact hpush h
        · split at h
          · exact Nat.lt_succ_of_lt (ih h)
          · obtain ⟨rfl, rfl⟩ := Prod.mk.inj (Option.some.inj h)
            simp
      · split at h
        · exact hpush h
        · exact hpush h

/-- What is behind a literal is shorter than what it is read from. -/
theorem length_of_read {n : ℕ} {value : List Char} (h : read b n cs = some (value, text)) :
    text.length < cs.length :=
  Nat.lt_of_le_of_lt (Nat.le_add_left _ _) (length_add_of_read h)

/-- A closing quote ends the literal exactly if what follows does not continue it. -/
theorem read_quote_iff :
    (∃ value, read b 0 ('\'' :: text) = some (value, text)) ↔ ¬ Continues text := by
  rw [read, if_pos rfl, Continues, not_or, Bool.not_eq_true, Option.isSome_eq_false_iff,
    Option.isNone_iff_eq_none]
  by_cases hquote : text.head? = some '\''
  · rw [if_pos hquote]
    refine iff_of_false ?_ fun h => h.1 hquote
    rintro ⟨value, h⟩
    obtain ⟨⟨v, t⟩, hr, hv⟩ := Option.map_eq_some_iff.mp h
    obtain ⟨-, rfl⟩ := Prod.mk.inj hv
    exact absurd (length_of_read hr) (Nat.lt_irrefl _)
  · rw [if_neg hquote]
    cases hresume : resume .line text with
    | none => exact iff_of_true ⟨[], rfl⟩ ⟨hquote, rfl⟩
    | some n =>
      refine iff_of_false ?_ fun h => nomatch h.2
      rintro ⟨value, h⟩
      exact absurd (length_of_read h) (Nat.lt_irrefl _)

/-- A literal that ends there has no more of a value. -/
theorem read_quote (h : ¬ Continues text) : read b 0 ('\'' :: text) = some ([], text) := by
  rw [Continues, not_or, Bool.not_eq_true, Option.isSome_eq_false_iff,
    Option.isNone_iff_eq_none] at h
  rw [read, if_pos rfl, if_neg h.1, h.2]

/-! ### Doubled characters -/

/-- The text with the characters of a class doubled. -/
def doubled (p : Char → Bool) (s : List Char) : List Char :=
  s.flatMap fun c => if p c then [c, c] else [c]

theorem doubled_nil (p : Char → Bool) : doubled p [] = [] := rfl

theorem doubled_cons (p : Char → Bool) (c : Char) (s : List Char) :
    doubled p (c :: s) = (if p c then [c, c] else [c]) ++ doubled p s := rfl

theorem doubled_cons_of_pos {p : Char → Bool} (hp : p c = true) (s : List Char) :
    doubled p (c :: s) = c :: c :: doubled p s := by
  rw [doubled_cons, if_pos hp]
  rfl

theorem doubled_cons_of_neg {p : Char → Bool} (hp : p c = false) (s : List Char) :
    doubled p (c :: s) = c :: doubled p s := by
  rw [doubled_cons, hp, if_neg Bool.false_ne_true]
  rfl

/-- Doubling changes nothing exactly if there is nothing to double. -/
theorem doubled_eq_iff {p : Char → Bool} {s : List Char} :
    doubled p s = s ↔ ∀ c ∈ s, p c = false := by
  have hle : ∀ s : List Char, s.length ≤ (doubled p s).length := by
    intro s
    induction s with
    | nil => exact Nat.le_refl _
    | cons c s ih =>
      rw [doubled_cons, List.length_append]
      split
      · simp only [List.length_cons, List.length_nil]
        omega
      · simp only [List.length_cons, List.length_nil]
        omega
  induction s with
  | nil => simp [doubled_nil]
  | cons c s ih =>
    rw [List.forall_mem_cons]
    cases hc : p c with
    | true =>
      refine iff_of_false (fun h => ?_) (by simp)
      have hlength := congrArg List.length h
      have hs := hle s
      rw [doubled_cons_of_pos hc, List.length_cons, List.length_cons, List.length_cons] at hlength
      omega
    | false =>
      rw [doubled_cons_of_neg hc]
      simpa using ih

theorem doubled_append (p : Char → Bool) (s t : List Char) :
    doubled p (s ++ t) = doubled p s ++ doubled p t :=
  List.flatMap_append

theorem doubled_replicate {p : Char → Bool} (hp : p c = true) (n : ℕ) :
    doubled p (List.replicate n c) = List.replicate (2 * n) c := by
  induction n with
  | zero => rfl
  | succ n ih =>
    rw [List.replicate_succ, doubled_cons_of_pos hp, ih, Nat.mul_add]
    rfl

/-- **No text is followed by its own literal behind a keyword**: where the text and the space
behind it end, the literal would have to go on. -/
theorem ne_keyword_doubled {p : Char → Bool} {keyword : List Char} (hne : keyword ≠ [])
    (hkeyword : doubled p keyword = keyword) (hspace : ' ' ∉ keyword) (hp : p ' ' = false)
    {q d : Char} (hq : p q = true) (hd : d ≠ q) (w : List Char) (k : ℕ) (s t : List Char) :
    w ++ ' ' :: d :: s ≠ (keyword ++ ' ' :: List.replicate (k + 1) q) ++ (doubled p w ++ t) := by
  have hqspace : q ≠ ' ' := by
    rintro rfl
    rw [hp] at hq
    cases hq
  induction hn : w.length using Nat.strongRecOn generalizing w k with
  | _ n ih =>
    intro h
    rcases List.append_eq_append_iff.mp h with ⟨a, ha, hrest⟩ | ⟨c, rfl, hrest⟩
    · cases a with
      | nil =>
        -- the text is the keyword with the quotes, and its literal begins with the keyword
        rw [List.append_nil] at ha
        obtain ⟨b, keyword', rfl⟩ := List.exists_cons_of_ne_nil hne
        rw [List.nil_append, ← ha, doubled_append, hkeyword] at hrest
        have hb : b = ' ' := (List.cons.inj hrest).1.symm
        exact hspace (by simp [hb])
      | cons b a =>
        obtain ⟨rfl, hnext⟩ := List.cons.inj hrest
        have hnot : ' ' ∉ List.replicate (k + 1) q := by
          intro hmem
          exact hqspace (List.eq_of_mem_replicate hmem).symm
        obtain ⟨-, -, rfl⟩ := (List.append_cons_inj_of_notMem hspace hnot).mp ha
        exact hd (List.cons.inj hnext).1
    · -- the text goes on behind them with a shorter one of the same kind
      have hdoubled : doubled p ((keyword ++ ' ' :: List.replicate (k + 1) q) ++ c) =
          (keyword ++ ' ' :: List.replicate (2 * k + 1 + 1) q) ++ doubled p c := by
        rw [doubled_append, doubled_append, hkeyword, doubled_cons_of_neg hp,
          doubled_replicate hq]
        rfl
      rw [hdoubled, List.append_assoc] at hrest
      have hshorter : c.length < n := by
        rw [← hn]
        simp only [List.length_append, List.length_cons]
        omega
      exact ih _ hshorter c (2 * k + 1) rfl hrest.symm

/-- Twice one after the other, for classes that have nothing in common. -/
theorem doubled_doubled {p q : Char → Bool} (h : ∀ c, p c = true → q c = false)
    (s : List Char) : doubled q (doubled p s) = doubled (fun c => p c || q c) s := by
  induction s with
  | nil => rfl
  | cons c s ih =>
    rw [doubled_cons, doubled_cons, doubled, List.flatMap_append, ← doubled, ← doubled, ih]
    cases hp : p c with
    | true => simp [doubled, h c hp]
    | false => cases hq : q c <;> simp [doubled, hq]

/-! ### Reading a doubled text -/

/-- A quote or a backslash. -/
def isSpecial (c : Char) : Bool := c == '\\' || c == '\''

/-- What a doubled text is read as: a backslash that escapes the other one of its pair is read
as what that means. -/
def readAs : Backslash → List Char → List Char
  | .ordinary, s => doubled (fun c => c == '\\') s
  | .escape meaning, s => s.map fun c => if c = '\\' then meaning '\\' else c

/-- A character that is no quote and does not escape the next one stands for itself. -/
theorem read_plain (hquote : c ≠ '\'') (hescaped : b.escaped c cs.head? = none) :
    read b 0 (c :: cs) = push c (read b 0 cs) := by
  rw [read, if_neg hquote, hescaped]

theorem read_doubled_quote : read b 0 ('\'' :: '\'' :: cs) = push '\'' (read b 0 cs) := by
  rw [read, if_pos rfl, List.head?_cons, if_pos rfl, read_succ]

theorem readAs_cons (b : Backslash) (c : Char) (s : List Char) :
    readAs b (c :: s) = readAs b [c] ++ readAs b s := by
  cases b with
  | ordinary =>
    rw [readAs, readAs, readAs, doubled_cons, doubled_cons, doubled_nil, List.append_nil]
  | escape meaning => rfl

/-- A character is read, doubled or not, and then what comes behind it. -/
theorem read_doubled_singleton (c : Char) (rest : List Char) :
    read b 0 (doubled isSpecial [c] ++ rest) =
      (read b 0 rest).map fun r => (readAs b [c] ++ r.1, r.2) := by
  by_cases hquote : c = '\''
  · subst hquote
    have hvalue : readAs b ['\''] = ['\''] := by cases b <;> rfl
    rw [hvalue]
    exact read_doubled_quote
  · by_cases hbackslash : c = '\\'
    · subst hbackslash
      cases b with
      | ordinary =>
        -- both backslashes are read
        show read .ordinary 0 ('\\' :: '\\' :: rest) = _
        rw [read_plain (by decide) rfl, read_plain (by decide) rfl]
        cases read .ordinary 0 rest <;> rfl
      | escape meaning =>
        show read (.escape meaning) 0 ('\\' :: '\\' :: rest) = _
        rw [read, if_neg (by decide), List.head?_cons, Backslash.escaped, if_pos rfl]
        rfl
    · have hplain : isSpecial c = false := by simp [isSpecial, hquote, hbackslash]
      have hescaped : b.escaped c rest.head? = none := by
        cases b with
        | ordinary => rfl
        | escape meaning => exact if_neg hbackslash
      have hvalue : readAs b [c] = [c] := by
        cases b with
        | ordinary => simp [readAs, doubled_cons, doubled_nil, hbackslash]
        | escape meaning => simp [readAs, hbackslash]
      rw [doubled_cons_of_neg hplain, doubled_nil, hvalue]
      exact read_plain hquote hescaped

/-- A doubled text is read, and then what comes behind it. -/
theorem read_doubled (s rest : List Char) :
    read b 0 (doubled isSpecial s ++ rest) =
      (read b 0 rest).map fun r => (readAs b s ++ r.1, r.2) := by
  induction s with
  | nil =>
    have hvalue : readAs b [] = [] := by cases b <;> rfl
    rw [hvalue]
    exact Option.map_id'.symm
  | cons c s ih =>
    have hsplit : doubled isSpecial (c :: s) = doubled isSpecial [c] ++ doubled isSpecial s := by
      rw [doubled_cons, doubled_cons, doubled_nil, List.append_nil]
    rw [hsplit, List.append_assoc, read_doubled_singleton, ih, Option.map_map, readAs_cons b c s]
    simp only [Function.comp_def, List.append_assoc]

/-- **A doubled text is read up to its own closing quote** exactly if what follows does not
continue the literal. -/
theorem ends_iff {s : List Char} :
    (∃ value, read b 0 (doubled isSpecial s ++ '\'' :: text) = some (value, text)) ↔
      ¬ Continues text := by
  rw [← @read_quote_iff b, read_doubled]
  constructor
  · rintro ⟨value, h⟩
    obtain ⟨⟨v, t⟩, hr, hv⟩ := Option.map_eq_some_iff.mp h
    obtain ⟨-, rfl⟩ := Prod.mk.inj hv
    exact ⟨v, hr⟩
  · rintro ⟨value, h⟩
    exact ⟨readAs b s ++ value, by rw [h, Option.map_some]⟩

/-- And its value. -/
theorem read_doubled_quoted (s : List Char) (h : ¬ Continues text) :
    read b 0 (doubled isSpecial s ++ '\'' :: text) = some (readAs b s, text) := by
  rw [read_doubled, read_quote h, Option.map_some, List.append_nil]

end SqlLiteral
