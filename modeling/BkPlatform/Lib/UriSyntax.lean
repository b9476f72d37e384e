import Mathlib.Data.List.DropRight
import Mathlib.Data.List.Infix

/-!
# URI references

The generic syntax of RFC 2396.  A reference is cut into its parts at the first `#`, at the
first `?` and at the first `/` behind `//`, and what comes before a `:` may be a scheme; then
every part is held against the characters it may consist of.  The blanks around a reference
do not count.

Which authorities are hosts, with a user in front and a port behind, is a parameter.

## Main definitions

* `Part`, `Uri` — what a reference consists of, and `Uri.text`, how it is written.
* `split` — the parts of a text, `Uri.WellFormed` — they are those of a reference.
* `parse` — both.

## Main results

* `text_split` — no character is lost.
* `split_text` — nothing is cut in another place than it was put together.
* `parse_eq_some_iff` — **exactly the references are accepted, each as what it is.**
-/

namespace UriSyntax

/-! ### Characters -/

/-- What `\s` matches. -/
def blanks : List Char := [' ', '\t', '\n', '\x0b', '\x0c', '\r']

def isBlank (c : Char) : Bool := blanks.contains c

def isHexDigit (c : Char) : Bool :=
  c.isDigit || "abcdefABCDEF".toList.contains c

def isUnreserved (c : Char) : Bool := c.isAlphanum || "-_.!~*'()".toList.contains c

/-- The characters of a query or a fragment. -/
def isUric (c : Char) : Bool := isUnreserved c || ";/?:@&=+$,[]".toList.contains c

/-- The characters of a path. -/
def isPathChar (c : Char) : Bool := isUnreserved c || ";/:@&=+$,".toList.contains c

/-- The characters of a first segment without a scheme, and the slashes behind it. -/
def isSegmentChar (c : Char) : Bool := isUnreserved c || ";@&=+$,".toList.contains c

/-- The characters of an authority. -/
def isAuthorityChar (c : Char) : Bool := isUnreserved c || ";:&=+$,@[]".toList.contains c

def isSchemeChar (c : Char) : Bool := c.isAlphanum || "+-.".toList.contains c

/-- Characters of the class, and `%` with two hexadecimal digits; `n` of the digits are still
to come. -/
def escapedFrom (p : Char → Bool) : ℕ → List Char → Bool
  | 0, [] => true
  | _ + 1, [] => false
  | 0, c :: cs => if c = '%' then escapedFrom p 2 cs else p c && escapedFrom p 0 cs
  | n + 1, c :: cs => isHexDigit c && escapedFrom p n cs

/-- Characters of the class and escapes. -/
def Escaped (p : Char → Bool) (cs : List Char) : Prop := escapedFrom p 0 cs = true

instance (p : Char → Bool) (cs : List Char) : Decidable (Escaped p cs) :=
  inferInstanceAs (Decidable (_ = _))

section Escaped

variable {p : Char → Bool} {a b : List Char}

theorem escapedFrom_append {n : ℕ} (ha : escapedFrom p n a = true) :
    escapedFrom p n (a ++ b) = escapedFrom p 0 b := by
  induction a generalizing n with
  | nil =>
    cases n with
    | zero => rfl
    | succ n => cases ha
  | cons c a ih =>
    cases n with
    | zero =>
      rw [List.cons_append, escapedFrom]
      rw [escapedFrom] at ha
      split at ha
      · next hc => rw [if_pos hc, ih ha]
      · next hc =>
        obtain ⟨hp, ha⟩ := Bool.and_eq_true_iff.mp ha
        rw [if_neg hc, hp, Bool.true_and, ih ha]
    | succ n =>
      obtain ⟨hc, ha⟩ := Bool.and_eq_true_iff.mp ha
      rw [List.cons_append, escapedFrom, hc, Bool.true_and, ih ha]

/-- What is put together of escapes and characters. -/
theorem escaped_append (ha : Escaped p a) : Escaped p (a ++ b) ↔ Escaped p b := by
  rw [Escaped, escapedFrom_append ha, Escaped]

/-- Characters of the class that need no escape. -/
theorem mem_of_escapedFrom {n : ℕ} (ha : escapedFrom p n a = true) :
    ∀ c ∈ a, c = '%' ∨ isHexDigit c = true ∨ p c = true := by
  induction a generalizing n with
  | nil => exact fun _ h => absurd h List.not_mem_nil
  | cons c a ih =>
    rw [List.forall_mem_cons]
    cases n with
    | zero =>
      rw [escapedFrom] at ha
      split at ha
      · next hc => exact ⟨Or.inl hc, ih ha⟩
      · obtain ⟨hp, ha⟩ := Bool.and_eq_true_iff.mp ha
        exact ⟨Or.inr (Or.inr hp), ih ha⟩
    | succ n =>
      obtain ⟨hc, ha⟩ := Bool.and_eq_true_iff.mp ha
      exact ⟨Or.inr (Or.inl hc), ih ha⟩

/-- A character that is neither in the class nor needed for an escape. -/
theorem not_mem_of_escaped (ha : Escaped p a) {c : Char} (hp : p c = false)
    (hescape : c ≠ '%' ∧ isHexDigit c = false) : c ∉ a := by
  intro hc
  rcases mem_of_escapedFrom ha c hc with h | h | h
  · exact hescape.1 h
  · rw [hescape.2] at h
    cases h
  · rw [hp] at h
    cases h

/-- Neither a `#` nor blanks. -/
def Clean (cs : List Char) : Prop := ∀ c ∈ cs, c ≠ '#' ∧ isBlank c = false

theorem clean_nil : Clean [] := fun _ h => absurd h List.not_mem_nil

theorem Clean.append (ha : Clean a) (hb : Clean b) : Clean (a ++ b) :=
  List.forall_mem_append.mpr ⟨ha, hb⟩

/-- Characters of a class without `#` and blanks, and escapes. -/
theorem Escaped.clean (ha : Escaped p a)
    (hp : (('#' :: blanks).all fun c => !p c && c != '%' && !isHexDigit c) = true) : Clean a := by
  have hnot : ∀ c ∈ '#' :: blanks, c ∉ a := by
    intro c hc
    have hall := List.all_eq_true.mp hp c hc
    simp only [Bool.and_eq_true, Bool.not_eq_true', bne_iff_ne] at hall
    exact not_mem_of_escaped ha hall.1.1 ⟨hall.1.2, hall.2⟩
  intro c hc
  refine ⟨fun h => hnot '#' List.mem_cons_self (h ▸ hc), ?_⟩
  rw [← Bool.not_eq_true]
  intro hblank
  exact hnot c (List.mem_cons_of_mem _ (List.contains_iff_mem.mp hblank)) hc

end Escaped

/-! ### Cutting -/

/-- What is optional, behind its mark. -/
def behind (mark : List Char) : Option (List Char) → List Char
  | none => []
  | some cs => mark ++ cs

/-- The text before the first `c`, and the text behind it. -/
def cut (c : Char) : List Char → List Char × Option (List Char)
  | [] => ([], none)
  | d :: cs => if d = c then ([], some cs) else (d :: (cut c cs).1, (cut c cs).2)

section Cut

variable {c : Char} {a cs : List Char}

theorem text_cut (c : Char) (cs : List Char) : (cut c cs).1 ++ behind [c] (cut c cs).2 = cs := by
  induction cs with
  | nil => rfl
  | cons d cs ih =>
    rw [cut]
    split
    · next hd =>
      obtain rfl := hd
      rfl
    · rw [List.cons_append, ih]

/-- The cut goes behind what has no `c`. -/
theorem cut_append_left (ha : c ∉ a) (cs : List Char) :
    cut c (a ++ cs) = (a ++ (cut c cs).1, (cut c cs).2) := by
  induction a with
  | nil => rfl
  | cons d a ih =>
    have hd : d ≠ c := fun h => ha (h ▸ List.mem_cons_self)
    rw [List.cons_append, cut, if_neg hd, ih (List.not_mem_of_not_mem_cons ha)]
    rfl

theorem cut_append (ha : c ∉ a) (o : Option (List Char)) : cut c (a ++ behind [c] o) = (a, o) := by
  rw [cut_append_left ha]
  cases o with
  | none => rw [behind, cut, List.append_nil]
  | some cs => rw [behind, List.singleton_append, cut, if_pos rfl, List.append_nil]

end Cut

/-- `\s*` at both ends. -/
def strip (cs : List Char) : List Char := (cs.dropWhile isBlank).rdropWhile isBlank

/-- Blanks at the end are dropped. -/
theorem rdropWhile_append_of_pos {p : Char → Bool} {cs trail : List Char}
    (h : ∀ c ∈ trail, p c = true) : (cs ++ trail).rdropWhile p = cs.rdropWhile p := by
  have hreverse : ∀ c ∈ trail.reverse, p c = true := fun c hc => h c (List.mem_reverse.mp hc)
  rw [List.rdropWhile, List.reverse_append, List.dropWhile_append_of_pos hreverse, List.rdropWhile]

/-- Blanks in front are dropped. -/
theorem strip_append_left {lead cs : List Char} (hlead : ∀ c ∈ lead, isBlank c = true) :
    strip (lead ++ cs) = strip cs := by
  rw [strip, List.dropWhile_append_of_pos hlead, strip]

/-- A text that begins and ends without blanks is left when blanks around it are stripped. -/
theorem strip_append {lead cs trail : List Char} (hlead : ∀ c ∈ lead, isBlank c = true)
    (hhead : ∀ c ∈ cs.head?, isBlank c = false) (hlast : ∀ c ∈ cs.getLast?, isBlank c = false)
    (htrail : ∀ c ∈ trail, isBlank c = true) : strip (lead ++ cs ++ trail) = cs := by
  rw [List.append_assoc, strip_append_left hlead]
  cases cs with
  | nil =>
    have hdrop : trail.dropWhile isBlank = [] := List.dropWhile_eq_nil_iff.mpr htrail
    rw [List.nil_append, strip, hdrop, List.rdropWhile_nil]
  | cons c cs =>
    have hc : ¬ isBlank c = true := by
      rw [hhead c rfl]
      decide
    rw [strip, List.cons_append, List.dropWhile_cons_of_neg hc, ← List.cons_append,
      rdropWhile_append_of_pos htrail, List.rdropWhile_eq_self_iff]
    intro hne
    rw [hlast _ (List.getLast?_eq_some_getLast hne)]
    decide

/-- Blanks between others are not stripped. -/
theorem mem_strip {lead a cs b : List Char} (hlead : ∀ c ∈ lead, isBlank c = true) (hne : a ≠ [])
    (ha : ∀ c ∈ a, isBlank c = false) (hb : ∃ c ∈ b, isBlank c = false) :
    ∀ c ∈ cs, c ∈ strip (lead ++ (a ++ cs ++ b)) := by
  intro c hc
  have hrest : b.rdropWhile isBlank ≠ [] := by
    rw [Ne, List.rdropWhile_eq_nil_iff]
    intro hall
    obtain ⟨d, hd, hnot⟩ := hb
    rw [hall d hd] at hnot
    cases hnot
  have hstrip : strip (lead ++ (a ++ cs ++ b.rdropWhile isBlank) ++ b.rtakeWhile isBlank) =
      a ++ cs ++ b.rdropWhile isBlank := by
    refine strip_append hlead (fun d hd => ?_) (fun d hd => ?_) fun d hd =>
      List.mem_rtakeWhile_imp hd
    · rw [List.append_assoc, List.head?_append_of_ne_nil _ hne] at hd
      exact ha d (List.mem_of_mem_head? hd)
    · rw [List.getLast?_append_of_ne_nil _ hrest, List.getLast?_eq_some_getLast hrest] at hd
      rw [← Option.some.inj hd, ← Bool.not_eq_true]
      exact List.rdropWhile_last_not isBlank b hrest
  rw [List.append_assoc, List.append_assoc, List.rdropWhile_append_rtakeWhile] at hstrip
  rw [hstrip]
  exact List.mem_append_left _ (List.mem_append_right _ hc)

/-! ### The parts of a reference -/

/-- What comes behind the scheme. -/
inductive Part
  /-- What does not begin with a slash, but has a scheme. -/
  | opaquePart (cs : List Char)
  | hierPart (authority : Option (List Char)) (path : List Char) (query : Option (List Char))
  deriving DecidableEq, Repr

/-- A URI reference. -/
structure Uri where
  scheme : Option (List Char)
  part : Part
  fragment : Option (List Char)
  deriving DecidableEq, Repr

namespace Uri

/-- The authority, if there is one. -/
def authority (u : Uri) : Option (List Char) :=
  match u.part with
  | .opaquePart _ => none
  | .hierPart authority _ _ => authority

/-- The path of what is hierarchical; it may be empty. -/
def path (u : Uri) : Option (List Char) :=
  match u.part with
  | .opaquePart _ => none
  | .hierPart _ path _ => some path

/-- The query, if there is one. -/
def query (u : Uri) : Option (List Char) :=
  match u.part with
  | .opaquePart _ => none
  | .hierPart _ _ query => query

/-- Where there is a query there is a path, if only an empty one. -/
theorem isSome_path_of_query {u : Uri} {query : List Char} (h : u.query = some query) :
    u.path.isSome = true := by
  unfold Uri.query at h
  unfold Uri.path
  split at h
  · cases h
  · rfl

end Uri

/-- A scheme and its colon. -/
def schemeText : Option (List Char) → List Char
  | none => []
  | some scheme => scheme ++ [':']

/-- How the part is written. -/
def Part.text : Part → List Char
  | opaquePart cs => cs
  | hierPart authority path query => behind ['/', '/'] authority ++ path ++ behind ['?'] query

/-- How the reference is written. -/
def Uri.text (u : Uri) : List Char := schemeText u.scheme ++ u.part.text ++ behind ['#'] u.fragment

/-- A letter, and then letters, digits and some signs. -/
def IsScheme (cs : List Char) : Prop :=
  cs.head?.any Char.isAlpha = true ∧ cs.all isSchemeChar = true

instance (cs : List Char) : Decidable (IsScheme cs) := inferInstanceAs (Decidable (_ ∧ _))

/-- The scheme, if there is one, and what comes behind it. -/
def splitScheme (cs : List Char) : Option (List Char) × List Char :=
  match cut ':' cs with
  | (scheme, some rest) => if IsScheme scheme then (some scheme, rest) else (none, cs)
  | (_, none) => (none, cs)

/-- The authority, if there is one, and the path. -/
def splitAuthority : List Char → Option (List Char) × List Char
  | '/' :: '/' :: cs => (some (cut '/' cs).1, behind ['/'] (cut '/' cs).2)
  | cs => (none, cs)

/-- The part. -/
def splitPart (absolute : Bool) (cs : List Char) : Part :=
  if absolute = true ∧ cs.head? ≠ some '/' then .opaquePart cs
  else .hierPart (splitAuthority (cut '?' cs).1).1 (splitAuthority (cut '?' cs).1).2 (cut '?' cs).2

/-- The reference, from its text without the blanks around it. -/
def split (cs : List Char) : Uri where
  scheme := (splitScheme (cut '#' (strip cs)).1).1
  part := splitPart (splitScheme (cut '#' (strip cs)).1).1.isSome
    (splitScheme (cut '#' (strip cs)).1).2
  fragment := (cut '#' (strip cs)).2

/-! ### No character is lost -/

theorem text_splitScheme (cs : List Char) :
    schemeText (splitScheme cs).1 ++ (splitScheme cs).2 = cs := by
  have htext := text_cut ':' cs
  unfold splitScheme
  split
  · next scheme rest hcut =>
    split
    · rw [hcut, behind, List.singleton_append] at htext
      rw [schemeText, List.append_assoc, List.singleton_append]
      exact htext
    · rfl
  · rfl

theorem text_splitAuthority (cs : List Char) :
    behind ['/', '/'] (splitAuthority cs).1 ++ (splitAuthority cs).2 = cs := by
  unfold splitAuthority
  split
  · next cs => rw [behind, List.append_assoc, text_cut]; rfl
  · rfl

theorem text_splitPart (absolute : Bool) (cs : List Char) : (splitPart absolute cs).text = cs := by
  unfold splitPart
  split
  · rfl
  · rw [Part.text, text_splitAuthority, text_cut]

/-- **No character is lost**, but the blanks around the text. -/
theorem text_split (cs : List Char) : (split cs).text = strip cs := by
  rw [Uri.text, split, text_splitPart, text_splitScheme, text_cut]

/-! ### Well-formed references -/

section WellFormed

-- the authorities that are hosts, of references with a scheme and of those without
variable (server : Bool → List Char → Bool)

/-- The part consists of the characters it may consist of, and looks like no other part. -/
def Part.WellFormed (absolute : Bool) : Part → Prop
  | opaquePart cs =>
    absolute = true ∧ Escaped isUric cs ∧
      (cs.head?.any fun c => c != '/' && c != '[' && c != ']') = true
  | hierPart (some authority) path query =>
    (Escaped isAuthorityChar authority ∧ server absolute authority = true) ∧
      (∀ c ∈ path.head?, c = '/') ∧ (absolute = true → authority ≠ [] ∨ path ≠ []) ∧
      Escaped isPathChar path ∧ ∀ q ∈ query, Escaped isUric q
  | hierPart none path query =>
    ¬ ['/', '/'] <+: path ∧ (absolute = true → path.head? = some '/') ∧
      (absolute = false → Escaped isSegmentChar (cut '/' path).1) ∧
      Escaped isPathChar path ∧ ∀ q ∈ query, Escaped isUric q

/-- Every part is well formed. -/
structure Uri.WellFormed (u : Uri) : Prop where
  scheme : ∀ scheme ∈ u.scheme, IsScheme scheme
  part : u.part.WellFormed server u.scheme.isSome
  fragment : ∀ fragment ∈ u.fragment, Escaped isUric fragment

instance decidableSlash (path : List Char) : Decidable (∀ c ∈ path.head?, c = '/') :=
  Option.decidableForallMem path.head?

instance decidablePartWellFormed (absolute : Bool) :
    ∀ part : Part, Decidable (part.WellFormed server absolute)
  | .opaquePart _ => inferInstanceAs (Decidable (_ ∧ _ ∧ _))
  | .hierPart (some _) _ _ => inferInstanceAs (Decidable ((_ ∧ _) ∧ _ ∧ _ ∧ _ ∧ _))
  | .hierPart none _ _ => inferInstanceAs (Decidable (¬ _ ∧ _ ∧ _ ∧ _ ∧ _))

instance (u : Uri) : Decidable (u.WellFormed server) :=
  decidable_of_iff ((∀ scheme ∈ u.scheme, IsScheme scheme) ∧
      u.part.WellFormed server u.scheme.isSome ∧ ∀ fragment ∈ u.fragment, Escaped isUric fragment)
    ⟨fun h => ⟨h.1, h.2.1, h.2.2⟩, fun h => ⟨h.scheme, h.part, h.fragment⟩⟩

/-- The reference a text is, if it is one. -/
def parse (cs : List Char) : Option Uri :=
  if (split cs).WellFormed server then some (split cs) else none

variable {server}

theorem clean_behind {mark : List Char} {o : Option (List Char)} (hmark : Clean mark)
    (h : ∀ cs ∈ o, Clean cs) : Clean (behind mark o) := by
  cases o with
  | none => exact clean_nil
  | some cs => exact hmark.append (h cs rfl)

/-- A part has neither blanks nor a `#`. -/
theorem Part.WellFormed.clean {absolute : Bool} {part : Part}
    (h : part.WellFormed server absolute) : Clean part.text := by
  have hhier : ∀ (authority : Option (List Char)) (path : List Char) (query : Option (List Char)),
      (∀ a ∈ authority, Escaped isAuthorityChar a) → Escaped isPathChar path →
      (∀ q ∈ query, Escaped isUric q) → Clean (Part.hierPart authority path query).text := by
    intro authority path query ha hpath hq
    have hslashes : Clean ['/', '/'] := fun c hc => by
      simp only [List.mem_cons, List.not_mem_nil, or_false, or_self] at hc
      subst hc
      decide
    have hmark : Clean ['?'] := fun c hc => by
      obtain rfl := List.mem_singleton.mp hc
      decide
    exact ((clean_behind hslashes fun a h => (ha a h).clean (by decide)).append
      (hpath.clean (by decide))).append (clean_behind hmark fun q h => (hq q h).clean (by decide))
  cases part with
  | opaquePart cs => exact h.2.1.clean (by decide)
  | hierPart authority path query =>
    cases authority with
    | none =>
      obtain ⟨-, -, -, hpath, hq⟩ := h
      exact hhier none path query (fun _ h => nomatch h) hpath hq
    | some authority =>
      obtain ⟨⟨ha, -⟩, -, -, hpath, hq⟩ := h
      exact hhier (some authority) path query (fun a h => Option.some.inj h ▸ ha) hpath hq

/-- A scheme consists of the characters of a scheme. -/
theorem IsScheme.not_mem {scheme : List Char} (h : IsScheme scheme) {c : Char}
    (hc : isSchemeChar c = false) : c ∉ scheme := by
  intro hmem
  have hscheme := List.all_eq_true.mp h.2 c hmem
  rw [hc] at hscheme
  cases hscheme

theorem IsScheme.clean {scheme : List Char} (h : IsScheme scheme) : Clean scheme := by
  have hclass : (('#' :: blanks).all fun c => !isSchemeChar c) = true := by decide
  have hnot : ∀ c ∈ '#' :: blanks, c ∉ scheme := fun c hc =>
    h.not_mem (Bool.not_eq_true' _ |>.mp (List.all_eq_true.mp hclass c hc))
  intro c hc
  refine ⟨fun heq => hnot '#' List.mem_cons_self (heq ▸ hc), ?_⟩
  rw [← Bool.not_eq_true]
  intro hblank
  exact hnot c (List.mem_cons_of_mem _ (List.contains_iff_mem.mp hblank)) hc

/-- What stands before the fragment. -/
theorem Uri.WellFormed.clean {u : Uri} (h : u.WellFormed server) :
    Clean (schemeText u.scheme ++ u.part.text) := by
  have hcolon : Clean [':'] := fun c hc => by
    obtain rfl := List.mem_singleton.mp hc
    decide
  have hscheme : Clean (schemeText u.scheme) := by
    cases hs : u.scheme with
    | none => exact clean_nil
    | some scheme => exact (h.scheme scheme hs).clean.append hcolon
  exact hscheme.append h.part.clean

/-- A reference has no blanks. -/
theorem Uri.WellFormed.not_blank {u : Uri} (h : u.WellFormed server) :
    ∀ c ∈ u.text, isBlank c = false := by
  intro c hc
  rcases List.mem_append.mp hc with hfront | hfragment
  · exact (h.clean c hfront).2
  · cases hf : u.fragment with
    | none =>
      rw [hf] at hfragment
      cases hfragment
    | some fragment =>
      rw [hf, behind, List.singleton_append] at hfragment
      rcases List.mem_cons.mp hfragment with rfl | hmem
      · decide
      · exact ((h.fragment fragment hf).clean (by decide) c hmem).2

theorem Uri.WellFormed.strip_text {u : Uri} (h : u.WellFormed server) {lead trail : List Char}
    (hlead : ∀ c ∈ lead, isBlank c = true) (htrail : ∀ c ∈ trail, isBlank c = true) :
    strip (lead ++ u.text ++ trail) = u.text :=
  strip_append hlead (fun c hc => h.not_blank c (List.mem_of_mem_head? hc))
    (fun c hc => h.not_blank c (List.mem_of_mem_getLast? hc)) htrail

/-! ### Cutting what was put together -/

theorem splitScheme_some {scheme : List Char} (h : IsScheme scheme) (rest : List Char) :
    splitScheme (schemeText (some scheme) ++ rest) = (some scheme, rest) := by
  have hcut : cut ':' (scheme ++ behind [':'] (some rest)) = (scheme, some rest) :=
    cut_append (h.not_mem (by decide)) (some rest)
  rw [schemeText, List.append_assoc]
  show splitScheme (scheme ++ behind [':'] (some rest)) = _
  rw [splitScheme, hcut]
  exact if_pos h

/-- There is no scheme where a `/` or a `?` comes before every colon. -/
theorem splitScheme_none {segment rest : List Char} (hsegment : ':' ∉ segment)
    (hrest : ∀ c ∈ rest.head?, c = '/' ∨ c = '?') :
    splitScheme (segment ++ rest) = (none, segment ++ rest) := by
  cases rest with
  | nil =>
    have hcut : cut ':' (segment ++ []) = (segment, none) := cut_append hsegment none
    rw [splitScheme, hcut]
  | cons d rest =>
    have hd : d ≠ ':' ∧ isSchemeChar d = false := by
      rcases hrest d rfl with rfl | rfl
      · decide
      · decide
    unfold splitScheme
    rw [cut_append_left hsegment, cut, if_neg hd.1]
    split
    · next scheme rest' hcut =>
      have hscheme := (Prod.mk.inj hcut).1
      refine if_neg fun h => h.not_mem hd.2 ?_
      rw [← hscheme]
      exact List.mem_append_right _ List.mem_cons_self
    · rfl

theorem splitAuthority_some {authority path : List Char} (hauthority : '/' ∉ authority)
    (hpath : ∀ c ∈ path.head?, c = '/') :
    splitAuthority (behind ['/', '/'] (some authority) ++ path) = (some authority, path) := by
  have hcut : ∃ o, path = behind ['/'] o := by
    cases path with
    | nil => exact ⟨none, rfl⟩
    | cons c path =>
      obtain rfl := hpath c rfl
      exact ⟨some path, rfl⟩
  obtain ⟨o, rfl⟩ := hcut
  show ((some (cut '/' (authority ++ behind ['/'] o)).1,
    behind ['/'] (cut '/' (authority ++ behind ['/'] o)).2) : Option (List Char) × List Char) = _
  rw [cut_append hauthority]

theorem splitAuthority_none {path : List Char} (h : ¬ ['/', '/'] <+: path) :
    splitAuthority path = (none, path) := by
  unfold splitAuthority
  split
  · next cs => exact absurd ⟨cs, rfl⟩ h
  · rfl

/-- There is no `?` before the query. -/
theorem Part.WellFormed.question_not_mem {absolute : Bool} {authority : Option (List Char)}
    {path : List Char} {query : Option (List Char)}
    (h : (hierPart authority path query).WellFormed server absolute) :
    '?' ∉ behind ['/', '/'] authority ++ path := by
  cases authority with
  | none =>
    obtain ⟨-, -, -, hpath, -⟩ := h
    exact not_mem_of_escaped hpath (by decide) (by decide)
  | some authority =>
    obtain ⟨⟨ha, -⟩, -, -, hpath, -⟩ := h
    intro hmem
    rcases List.mem_append.mp hmem with hmem | hmem
    · rcases List.mem_append.mp hmem with hslashes | hmem
      · exact absurd hslashes (by decide)
      · exact not_mem_of_escaped ha (by decide) (by decide) hmem
    · exact not_mem_of_escaped hpath (by decide) (by decide) hmem

/-- The part is found again. -/
theorem splitPart_text {absolute : Bool} {part : Part} (h : part.WellFormed server absolute) :
    splitPart absolute part.text = part := by
  cases part with
  | opaquePart cs =>
    obtain ⟨habsolute, -, hhead⟩ := h
    refine if_pos ⟨habsolute, fun hslash => ?_⟩
    rw [Part.text] at hslash
    rw [hslash] at hhead
    cases hhead
  | hierPart authority path query =>
    have hfront : splitAuthority (behind ['/', '/'] authority ++ path) = (authority, path) ∧
        (absolute = true → (behind ['/', '/'] authority ++ path).head? = some '/') := by
      cases authority with
      | none =>
        obtain ⟨hslashes, habsolute, -⟩ := h
        exact ⟨splitAuthority_none hslashes, habsolute⟩
      | some authority =>
        obtain ⟨⟨ha, -⟩, hhead, -⟩ := h
        exact ⟨splitAuthority_some (not_mem_of_escaped ha (by decide) (by decide)) hhead,
          fun _ => rfl⟩
    have hnot : ¬ (absolute = true ∧ (behind ['/', '/'] authority ++ path ++
        behind ['?'] query).head? ≠ some '/') := by
      rintro ⟨habs, hhead⟩
      refine hhead ?_
      rw [List.head?_append, hfront.2 habs]
      rfl
    rw [Part.text, splitPart, if_neg hnot, cut_append h.question_not_mem, hfront.1]

/-- The scheme is found again. -/
theorem splitScheme_text {u : Uri} (h : u.WellFormed server) :
    splitScheme (schemeText u.scheme ++ u.part.text) = (u.scheme, u.part.text) := by
  have hpart := h.part
  cases hs : u.scheme with
  | some scheme => exact splitScheme_some (h.scheme scheme hs) _
  | none =>
    rw [hs] at hpart
    show splitScheme u.part.text = (none, u.part.text)
    cases hp : u.part with
    | opaquePart cs =>
      rw [hp] at hpart
      cases hpart.1
    | hierPart authority path query =>
      rw [hp] at hpart
      cases authority with
      | some authority =>
        exact @splitScheme_none [] _ List.not_mem_nil fun c hc => Or.inl (Option.some.inj hc).symm
      | none =>
        -- a colon in the first segment would be one behind a scheme
        have hsegment : ':' ∉ (cut '/' path).1 :=
          not_mem_of_escaped (hpart.2.2.1 rfl) (by decide) (by decide)
        have hrest := @splitScheme_none _ (behind ['/'] (cut '/' path).2 ++ behind ['?'] query)
          hsegment fun c hc => by
            cases hcut : (cut '/' path).2 with
            | some rest =>
              rw [hcut] at hc
              exact Or.inl (Option.some.inj hc).symm
            | none =>
              rw [hcut] at hc
              cases query with
              | none => cases hc
              | some query => exact Or.inr (Option.some.inj hc).symm
        rw [← List.append_assoc, text_cut] at hrest
        exact hrest

/-- **Nothing is cut in another place than it was put together.** -/
theorem split_text {u : Uri} (h : u.WellFormed server) {lead trail : List Char}
    (hlead : ∀ c ∈ lead, isBlank c = true) (htrail : ∀ c ∈ trail, isBlank c = true) :
    split (lead ++ u.text ++ trail) = u := by
  have hhash : '#' ∉ schemeText u.scheme ++ u.part.text := fun hmem => (h.clean _ hmem).1 rfl
  rw [split, h.strip_text hlead htrail, Uri.text, cut_append hhash]
  dsimp only
  rw [splitScheme_text h, splitPart_text h.part]

/-- **Exactly the references are accepted, each as what it is.** -/
theorem parse_eq_some_iff {u : Uri} {cs : List Char} :
    parse server cs = some u ↔ u.WellFormed server ∧ ∃ lead trail,
      (∀ c ∈ lead, isBlank c = true) ∧ (∀ c ∈ trail, isBlank c = true) ∧
        cs = lead ++ u.text ++ trail := by
  rw [parse]
  constructor
  · intro h
    split at h
    · next hwf =>
      obtain rfl := Option.some.inj h
      refine ⟨hwf, cs.takeWhile isBlank, (cs.dropWhile isBlank).rtakeWhile isBlank,
        fun c hc => List.mem_takeWhile_imp hc, fun c hc => List.mem_rtakeWhile_imp hc, ?_⟩
      rw [text_split, strip, List.append_assoc, List.rdropWhile_append_rtakeWhile,
        List.takeWhile_append_dropWhile]
    · cases h
  · rintro ⟨hwf, lead, trail, hlead, htrail, rfl⟩
    rw [split_text hwf hlead htrail, if_pos hwf]

/-! ### Fragments and queries -/

/-- What is put behind a reference with a fragment goes to the fragment. -/
theorem Uri.WellFormed.cut_hash {u : Uri} (h : u.WellFormed server) {lead fragment : List Char}
    (hlead : ∀ c ∈ lead, isBlank c = true) (hfragment : u.fragment = some fragment)
    (rest : List Char) : (cut '#' (lead ++ u.text ++ rest)).2 = some (fragment ++ rest) := by
  have hhash : '#' ∉ lead ++ (schemeText u.scheme ++ u.part.text) := by
    intro hmem
    rcases List.mem_append.mp hmem with hmem | hmem
    · exact absurd (hlead _ hmem) (by decide)
    · exact (h.clean _ hmem).1 rfl
  have hglue : lead ++ u.text ++ rest =
      lead ++ (schemeText u.scheme ++ u.part.text) ++ behind ['#'] (some (fragment ++ rest)) := by
    rw [Uri.text, hfragment]
    simp only [behind, List.append_assoc]
  rw [hglue, cut_append hhash]

/-- What the query consists of. -/
theorem Uri.WellFormed.query {u : Uri} (h : u.WellFormed server) :
    ∀ q ∈ u.query, Escaped isUric q := by
  have hpart := h.part
  intro q hq
  cases hp : u.part with
  | opaquePart cs =>
    rw [Uri.query, hp] at hq
    cases hq
  | hierPart authority path query =>
    rw [Uri.query, hp] at hq
    rw [hp] at hpart
    cases authority with
    | none => exact hpart.2.2.2.2 q hq
    | some authority => exact hpart.2.2.2.2 q hq

/-- The reference with this query. -/
def Uri.withQuery (u : Uri) (query : List Char) : Uri :=
  match u.part with
  | .opaquePart _ => u
  | .hierPart authority path _ => { u with part := .hierPart authority path (some query) }

section WithQuery

variable {u : Uri} {query : List Char}

@[simp] theorem Uri.scheme_withQuery : (u.withQuery query).scheme = u.scheme := by
  unfold Uri.withQuery
  split <;> rfl

@[simp] theorem Uri.fragment_withQuery : (u.withQuery query).fragment = u.fragment := by
  unfold Uri.withQuery
  split <;> rfl

@[simp] theorem Uri.authority_withQuery : (u.withQuery query).authority = u.authority := by
  unfold Uri.withQuery Uri.authority
  cases h : u.part with
  | opaquePart cs => simp only [h]
  | hierPart authority path query' => rfl

@[simp] theorem Uri.path_withQuery : (u.withQuery query).path = u.path := by
  unfold Uri.withQuery Uri.path
  cases h : u.part with
  | opaquePart cs => simp only [h]
  | hierPart authority path query' => rfl

theorem Uri.query_withQuery (hpath : u.path.isSome = true) :
    (u.withQuery query).query = some query := by
  unfold Uri.withQuery
  unfold Uri.path at hpath
  cases h : u.part with
  | opaquePart cs =>
    rw [h] at hpath
    cases hpath
  | hierPart authority path query' => rfl

/-- The query may be any other one. -/
theorem Uri.WellFormed.withQuery (h : u.WellFormed server) (hquery : Escaped isUric query) :
    (u.withQuery query).WellFormed server := by
  have hpart := h.part
  unfold Uri.withQuery
  split
  · exact h
  · next authority path query' hp =>
    rw [hp] at hpart
    refine ⟨h.scheme, ?_, h.fragment⟩
    cases authority with
    | none =>
      obtain ⟨hslashes, habsolute, hsegment, hpath, -⟩ := hpart
      exact ⟨hslashes, habsolute, hsegment, hpath, fun q hq => Option.some.inj hq ▸ hquery⟩
    | some authority =>
      obtain ⟨hauthority, hhead, hne, hpath, -⟩ := hpart
      exact ⟨hauthority, hhead, hne, hpath, fun q hq => Option.some.inj hq ▸ hquery⟩

/-- What stands before the query. -/
def Uri.base (u : Uri) : List Char :=
  match u.part with
  | .opaquePart cs => schemeText u.scheme ++ cs
  | .hierPart authority path _ => schemeText u.scheme ++ (behind ['/', '/'] authority ++ path)

/-- Without a fragment the query is at the end. -/
theorem Uri.text_eq (hpath : u.path.isSome = true) (hfragment : u.fragment = none) :
    u.text = u.base ++ behind ['?'] u.query := by
  rw [Uri.text, hfragment, behind, List.append_nil, Uri.base, Uri.query]
  cases hp : u.part with
  | opaquePart cs =>
    rw [Uri.path, hp] at hpath
    cases hpath
  | hierPart authority path query => simp only [Part.text, List.append_assoc]

theorem Uri.text_withQuery (hpath : u.path.isSome = true) (hfragment : u.fragment = none) :
    (u.withQuery query).text = u.base ++ behind ['?'] (some query) := by
  rw [Uri.withQuery]
  cases hp : u.part with
  | opaquePart cs =>
    rw [Uri.path, hp] at hpath
    cases hpath
  | hierPart authority path query' =>
    rw [Uri.text, Uri.base, hp, hfragment, behind, List.append_nil]
    simp only [Part.text, List.append_assoc]

/-- The first `?` is the one of the query. -/
theorem Uri.WellFormed.question_not_mem (h : u.WellFormed server) (hpath : u.path.isSome = true) :
    '?' ∉ u.base := by
  have hpart := h.part
  have hscheme : '?' ∉ schemeText u.scheme := by
    cases hs : u.scheme with
    | none => exact List.not_mem_nil
    | some scheme =>
      intro hmem
      rcases List.mem_append.mp hmem with hmem | hmem
      · exact (h.scheme scheme hs).not_mem (by decide) hmem
      · exact absurd (List.mem_singleton.mp hmem) (by decide)
  rw [Uri.base]
  cases hp : u.part with
  | opaquePart cs =>
    rw [Uri.path, hp] at hpath
    cases hpath
  | hierPart authority path query =>
    rw [hp] at hpart
    intro hmem
    rcases List.mem_append.mp hmem with hmem | hmem
    · exact hscheme hmem
    · exact hpart.question_not_mem hmem

end WithQuery

end WellFormed

end UriSyntax
