import Mathlib.Data.List.Basic
import Mathlib.Data.List.Forall2
import Mathlib.Data.List.TakeWhile

/-!
# Files of settings in sections

How a file of sections is read: a line in brackets begins a section, a line with an equals sign
is a setting of the section it stands in, and lines that are blank or begin with a hash or a
semicolon are skipped.  Blank space around names and values does not count.

## Main definitions

* `Line`, `lineOf` — what a line says.
* `Section`, `read` — the sections of a file.
* `Reads` — lines that are read as sections, whatever sections come behind them.

## Main results

* `lineOf_header`, `lineOf_setting` — **a line is read as what it was written from.**
* `reads_section`, `reads_flatMap` — and so are the sections.
-/

namespace Settings

/-! ### Reading -/

def isSpace (c : Char) : Bool := c = ' ' || c = '\t' || c = '\n' || c = '\r'

/-- A text without the blank space at its ends. -/
def strip (cs : List Char) : List Char :=
  ((cs.dropWhile isSpace).reverse.dropWhile isSpace).reverse

/-- What a line says. -/
inductive Line
  | blank
  | header (name : List Char)
  | setting (key value : List Char)
  deriving DecidableEq, Repr

/-- What a line says, if it can be read. -/
def lineOf (line : List Char) : Option Line :=
  match strip line with
  | [] => some .blank
  | c :: cs =>
    if c = '#' ∨ c = ';' then some .blank
    else if c = '[' then
      if cs.getLast? = some ']' then some (.header (strip cs.dropLast)) else none
    else if '=' ∈ c :: cs then
      some (.setting (strip ((c :: cs).takeWhile (· != '=')))
        (strip (((c :: cs).dropWhile (· != '=')).drop 1)))
    else none

/-- A section: its name, and its settings in order. -/
structure Section where
  name : List Char
  settings : List (List Char × List Char)
  deriving DecidableEq, Repr

/-- The settings in front of the first header, and the sections. -/
def readLines : List (List Char) → Option (List (List Char × List Char) × List Section)
  | [] => some ([], [])
  | line :: lines =>
    match lineOf line, readLines lines with
    | some .blank, some rest => some rest
    | some (.setting key value), some (loose, ss) => some ((key, value) :: loose, ss)
    | some (.header name), some (loose, ss) => some ([], ⟨name, loose⟩ :: ss)
    | _, _ => none

/-- The sections of a file; no setting stands in front of them. -/
def read (lines : List (List Char)) : Option (List Section) :=
  match readLines lines with
  | some ([], ss) => some ss
  | _ => none

/-! ### Lines -/

/-- A text that neither begins nor ends with blank space. -/
def Trimmed (cs : List Char) : Prop :=
  (∀ c ∈ cs.head?, isSpace c = false) ∧ ∀ c ∈ cs.getLast?, isSpace c = false

instance (cs : List Char) : Decidable (Trimmed cs) :=
  @instDecidableAnd _ _ (Option.decidableForallMem _) (Option.decidableForallMem _)

theorem trimmed_of_forall {cs : List Char} (h : ∀ c ∈ cs, isSpace c = false) : Trimmed cs :=
  ⟨fun c hc => h c (List.mem_of_mem_head? hc), fun c hc => h c (List.mem_of_mem_getLast? hc)⟩

theorem dropWhile_of_head {cs : List Char} (h : ∀ c ∈ cs.head?, isSpace c = false) :
    cs.dropWhile isSpace = cs := by
  cases cs with
  | nil => rfl
  | cons c cs => exact List.dropWhile_cons_of_neg (by simp [h c rfl])

/-- **Blank space around a text is taken off.** -/
theorem strip_pad {before cs after : List Char} (hbefore : before.all isSpace = true)
    (hafter : after.all isSpace = true) (h : Trimmed cs) : strip (before ++ cs ++ after) = cs := by
  have hspace : ∀ c ∈ before, isSpace c = true := List.all_eq_true.mp hbefore
  have hspace' : ∀ c ∈ after, isSpace c = true := List.all_eq_true.mp hafter
  cases cs with
  | nil =>
    have hall : ∀ c ∈ before ++ [] ++ after, isSpace c = true := by
      simpa [or_imp, forall_and] using ⟨hspace, hspace'⟩
    rw [strip, List.dropWhile_eq_nil_iff.mpr hall]
    rfl
  | cons c cs =>
    have hfront : (before ++ (c :: cs) ++ after).dropWhile isSpace = (c :: cs) ++ after := by
      rw [List.append_assoc, List.dropWhile_append_of_pos hspace]
      exact dropWhile_of_head h.1
    have hback : ((c :: cs) ++ after).reverse.dropWhile isSpace = (c :: cs).reverse := by
      rw [List.reverse_append,
        List.dropWhile_append_of_pos fun d hd => hspace' d (List.mem_reverse.mp hd)]
      refine dropWhile_of_head fun d hd => h.2 d ?_
      rwa [List.head?_reverse] at hd
    rw [strip, hfront, hback, List.reverse_reverse]

theorem lineOf_blank {line : List Char} (h : line.all isSpace = true) :
    lineOf line = some .blank := by
  have hstrip : strip line = [] := by
    have hpad := @strip_pad line [] [] h rfl (by decide)
    rwa [List.append_nil, List.append_nil] at hpad
  rw [lineOf, hstrip]

/-- **A header is read as its name.** -/
theorem lineOf_header {name after : List Char} (hname : Trimmed name)
    (hafter : after.all isSpace = true) :
    lineOf ('[' :: (name ++ [']']) ++ after) = some (.header name) := by
  have htrimmed : Trimmed ('[' :: (name ++ [']'])) := by
    refine ⟨fun c hc => ?_, fun c hc => ?_⟩
    · obtain rfl : '[' = c := by simpa using hc
      rfl
    · have hlast : ('[' :: (name ++ [']'])).getLast? = some ']' := by
        rw [← List.cons_append, List.getLast?_concat]
      rw [hlast] at hc
      obtain rfl : ']' = c := by simpa using hc
      rfl
  have hstrip := @strip_pad [] _ after rfl hafter htrimmed
  have hname' : strip name = name := by
    have hpad := @strip_pad [] name [] rfl rfl hname
    rwa [List.append_nil, List.nil_append] at hpad
  rw [List.nil_append] at hstrip
  rw [lineOf, hstrip]
  simp [hname']

/-- The name of a setting. -/
def IsKey (key : List Char) : Prop :=
  Trimmed key ∧ '=' ∉ key ∧ ∃ c ∈ key.head?, c ≠ '#' ∧ c ≠ ';' ∧ c ≠ '['

instance (key : List Char) : Decidable (IsKey key) :=
  @instDecidableAnd _ _ _ (@instDecidableAnd _ _ _ (Option.decidableExistsMem _))

/-- **A setting is read as its name and its value**, whatever blank space is around them. -/
theorem lineOf_setting {key before after value last : List Char} (hkey : IsKey key)
    (hbefore : before.all isSpace = true) (hafter : after.all isSpace = true)
    (hlast : last.all isSpace = true) (hvalue : Trimmed value) (hne : value ≠ []) :
    lineOf (key ++ before ++ '=' :: (after ++ value) ++ last) = some (.setting key value) := by
  obtain ⟨hkeyTrimmed, hequals, c, hc, hhash, hsemicolon, hbracket⟩ := hkey
  obtain ⟨cs, rfl⟩ : ∃ cs, key = c :: cs := List.head?_eq_some_iff.mp hc
  have htrimmed : Trimmed (c :: cs ++ before ++ '=' :: (after ++ value)) := by
    refine ⟨fun d hd => hkeyTrimmed.1 d (by simpa using hd), fun d hd => hvalue.2 d ?_⟩
    have hsplit : c :: cs ++ before ++ '=' :: (after ++ value) =
        (c :: cs ++ before ++ '=' :: after) ++ value := by simp
    rwa [hsplit, List.getLast?_append_of_ne_nil _ hne] at hd
  have hstrip := @strip_pad [] _ last rfl hlast htrimmed
  rw [List.nil_append] at hstrip
  have hno : ∀ d ∈ c :: cs ++ before, (d != '=') = true := by
    intro d hd
    rw [bne_iff_ne]
    rintro rfl
    rcases List.mem_append.mp hd with hd | hd
    · exact hequals hd
    · exact absurd (List.all_eq_true.mp hbefore '=' hd) (by decide)
  have htake : (c :: cs ++ before ++ '=' :: (after ++ value)).takeWhile (· != '=') =
      c :: cs ++ before := by
    rw [List.takeWhile_append_of_pos hno]
    simp
  have hdrop : (c :: cs ++ before ++ '=' :: (after ++ value)).dropWhile (· != '=') =
      '=' :: (after ++ value) := by
    rw [List.dropWhile_append_of_pos hno]
    simp
  have hkey' : strip (c :: cs ++ before) = c :: cs := by
    have hpad := @strip_pad [] (c :: cs) before rfl hbefore hkeyTrimmed
    rwa [List.nil_append] at hpad
  have hvalue' : strip (after ++ value) = value := by
    have hpad := @strip_pad after value [] hafter rfl hvalue
    rwa [List.append_nil] at hpad
  have hmem : '=' ∈ c :: cs ++ before ++ '=' :: (after ++ value) := by simp
  rw [lineOf, hstrip]
  simp only [List.cons_append] at htake hdrop hmem hkey' ⊢
  simp only [hhash, hsemicolon, hbracket, or_self, if_false, if_pos hmem, htake, hdrop, hkey',
    List.drop_succ_cons, List.drop_zero, hvalue']

/-! ### Sections -/

/-- The lines are read as these sections, whatever sections come behind them. -/
def Reads (lines : List (List Char)) (ss : List Section) : Prop :=
  ∀ rest more, readLines rest = some ([], more) → readLines (lines ++ rest) = some ([], ss ++ more)

theorem reads_nil : Reads [] [] := fun _ _ h => h

theorem Reads.append {a b : List (List Char)} {ss ts : List Section} (ha : Reads a ss)
    (hb : Reads b ts) : Reads (a ++ b) (ss ++ ts) := by
  intro rest more h
  rw [List.append_assoc, List.append_assoc]
  exact ha _ _ (hb _ _ h)

theorem reads_flatMap {α : Type*} {f : α → List (List Char)} {g : α → List Section} {l : List α}
    (h : ∀ x ∈ l, Reads (f x) (g x)) : Reads (l.flatMap f) (l.flatMap g) := by
  induction l with
  | nil => exact reads_nil
  | cons x l ih =>
    rw [List.flatMap_cons, List.flatMap_cons]
    exact (h x List.mem_cons_self).append (ih fun y hy => h y (List.mem_cons_of_mem x hy))

/-- The whole file. -/
theorem Reads.read_eq {lines : List (List Char)} {ss : List Section} (h : Reads lines ss) :
    read lines = some ss := by
  have hall := h [] [] rfl
  rw [List.append_nil, List.append_nil] at hall
  rw [read, hall]

/-- **A section is read as its name and its settings.** -/
theorem reads_section {header : List Char} {lines blank : List (List Char)} {name : List Char}
    {settings : List (List Char × List Char)} (hheader : lineOf header = some (.header name))
    (hlines : List.Forall₂ (fun line s => lineOf line = some (.setting s.1 s.2)) lines settings)
    (hblank : ∀ line ∈ blank, lineOf line = some .blank) :
    Reads (header :: (lines ++ blank)) [⟨name, settings⟩] := by
  intro rest more h
  have hskip : readLines (blank ++ rest) = some ([], more) := by
    induction blank with
    | nil => exact h
    | cons line blank ih =>
      rw [List.forall_mem_cons] at hblank
      rw [List.cons_append, readLines, hblank.1, ih hblank.2]
  have hloose : readLines (lines ++ (blank ++ rest)) = some (settings, more) := by
    induction hlines with
    | nil => exact hskip
    | cons hline _ ih => rw [List.cons_append, readLines, hline, ih]
  rw [List.cons_append, List.append_assoc, readLines, hheader, hloose]
  rfl

end Settings
