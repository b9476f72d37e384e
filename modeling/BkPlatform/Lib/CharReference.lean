import Mathlib.Data.List.Basic
import Mathlib.Data.Nat.Notation

/-!
# The text of an attribute in HTML

What an HTML parser makes of the characters between the quotes of an attribute: a line break of
any kind is a line feed, the character NUL is replaced, and character references are put in
their characters' place.

A text in which the special characters are escaped is read back, but for its line breaks and
NULs.

## Main definitions

* `normalizeNewlines` — what is done to line breaks.
* `References` — the table of named references.
* `References.decode` — the references of a text replaced.
* `References.attributeText` — the text of an attribute.
* `escaped` — a text with its special characters escaped.
* `weight` — what reading a text makes less of.

## Main results

* `attributeText_escaped` — what an escaped text is read as.
* `attributeText_escaped_eq_iff` — **when it is read back.**
* `weight_attributeText_lt` — **a text that is not read as itself is read as a lesser one.**
-/

namespace Html

/-! ### Line breaks -/

/-- A carriage return, with the line feed behind it if there is one, is a line feed. -/
def normalizeNewlines : List Char → List Char
  | [] => []
  | '\r' :: '\n' :: cs => '\n' :: normalizeNewlines cs
  | '\r' :: cs => '\n' :: normalizeNewlines cs
  | c :: cs => c :: normalizeNewlines cs

@[simp] theorem normalizeNewlines_nil : normalizeNewlines [] = [] := rfl

theorem normalizeNewlines_cons {c : Char} (h : c ≠ '\r') (cs : List Char) :
    normalizeNewlines (c :: cs) = c :: normalizeNewlines cs := by
  rw [normalizeNewlines.eq_def]
  split <;> simp_all

/-- The line feed of a pair is not there. -/
theorem normalizeNewlines_return (cs : List Char) :
    normalizeNewlines ('\r' :: cs) = '\n' :: normalizeNewlines cs ∨
      ∃ rest, cs = '\n' :: rest ∧ normalizeNewlines ('\r' :: cs) = normalizeNewlines cs := by
  cases cs with
  | nil => exact Or.inl rfl
  | cons c rest =>
    by_cases hc : c = '\n'
    · subst hc
      refine Or.inr ⟨rest, rfl, ?_⟩
      rw [normalizeNewlines, normalizeNewlines_cons (by decide)]
    · refine Or.inl ?_
      rw [normalizeNewlines]
      simpa using hc

/-- A text with no carriage return stays as it is, whatever follows it. -/
theorem normalizeNewlines_append {a : List Char} (h : '\r' ∉ a) (b : List Char) :
    normalizeNewlines (a ++ b) = a ++ normalizeNewlines b := by
  induction a with
  | nil => rfl
  | cons c a ih =>
    obtain ⟨hc, ha⟩ : '\r' ≠ c ∧ '\r' ∉ a := by simpa using h
    rw [List.cons_append, normalizeNewlines_cons (Ne.symm hc), ih ha, List.cons_append]

/-- A text is normalized by itself where no line feed follows. -/
theorem normalizeNewlines_append_cons (a : List Char) {c : Char} (hfeed : c ≠ '\n')
    (b : List Char) : normalizeNewlines (a ++ c :: b) =
      normalizeNewlines a ++ normalizeNewlines (c :: b) := by
  fun_induction normalizeNewlines a with
  | case1 => rfl
  | case2 cs ih => simp only [List.cons_append, normalizeNewlines, ih]
  | case3 cs hcs ih =>
    rw [List.cons_append, List.cons_append, ← ih]
    rcases normalizeNewlines_return (cs ++ c :: b) with h | ⟨rest, heq, -⟩
    · exact h
    · cases cs with
      | nil => exact absurd (List.cons.inj heq).1 hfeed
      | cons d cs => exact (hcs cs (by rw [(List.cons.inj heq).1])).elim
  | case4 d cs hpair hd ih =>
    rw [List.cons_append, normalizeNewlines_cons (by simpa using hd), ih, List.cons_append]

/-- No carriage return is left. -/
theorem return_notMem_normalizeNewlines (a : List Char) : '\r' ∉ normalizeNewlines a := by
  fun_induction normalizeNewlines a with
  | case1 => simp
  | case2 cs ih => simpa using ih
  | case3 cs _ ih => simpa using ih
  | case4 c cs _ hc ih =>
    have hne : c ≠ '\r' := by simpa using hc
    simpa [Ne.symm hne] using ih

/-- Only line feeds are put in. -/
theorem mem_of_mem_normalizeNewlines {a : List Char} {d : Char} (hd : d ≠ '\n')
    (h : d ∈ normalizeNewlines a) : d ∈ a := by
  fun_induction normalizeNewlines a with
  | case1 => exact h
  | case2 cs ih =>
    have hmem := ih ((List.mem_cons.mp h).resolve_left hd)
    exact List.mem_cons_of_mem _ (List.mem_cons_of_mem _ hmem)
  | case3 cs _ ih => exact List.mem_cons_of_mem _ (ih ((List.mem_cons.mp h).resolve_left hd))
  | case4 c cs _ _ ih =>
    rcases List.mem_cons.mp h with rfl | h
    · exact List.mem_cons_self
    · exact List.mem_cons_of_mem _ (ih h)

theorem normalizeNewlines_eq_self_iff {a : List Char} : normalizeNewlines a = a ↔ '\r' ∉ a := by
  constructor
  · intro h
    rw [← h]
    exact return_notMem_normalizeNewlines a
  · intro h
    simpa using normalizeNewlines_append h []

/-! ### Character references -/

/-- The table of named references, by their names behind the ampersand.  Some names end in a
semicolon, and none goes on behind one; no name is shorter than the text it stands for. -/
structure References where
  find : List Char → Option (List Char)
  amp : find "amp;".toList = some ['&']
  lt : find "lt;".toList = some ['<']
  gt : find "gt;".toList = some ['>']
  quot : find "quot;".toList = some ['"']
  ends : ∀ name more, more ≠ [] → find (name ++ ';' :: more) = none
  short : ∀ name text, find name = some text → text.length ≤ name.length
  printable : ∀ name text, find name = some text → '\r' ∉ text ∧ '\x00' ∉ text

variable (refs : References)

/-- The longest name that a text begins with, `seen` being the part of it already looked at. -/
def References.longest (seen : List Char) : List Char → Option (List Char × List Char)
  | [] => (refs.find seen).map (seen, ·)
  | c :: cs => (References.longest (seen ++ [c]) cs).or ((refs.find seen).map (seen, ·))

/-- A named reference: its text, and how many characters its name has.  In an attribute, one
with no semicolon does not count in front of an equals sign, a letter or a digit. -/
def References.named (cs : List Char) : Option (List Char × ℕ) :=
  match refs.longest [] cs with
  | none => none
  | some (name, text) =>
    let next := cs[name.length]?
    if name.getLast? ≠ some ';' ∧ next.any (fun c => c = '=' || c.isAlphanum) then none
    else some (text, name.length)

/-- The value of a digit. -/
def digitValue (base : ℕ) (c : Char) : Option ℕ :=
  if c.isDigit then some (c.toNat - '0'.toNat)
  else if base = 16 ∧ 'a' ≤ c ∧ c ≤ 'f' then some (c.toNat - 'a'.toNat + 10)
  else if base = 16 ∧ 'A' ≤ c ∧ c ≤ 'F' then some (c.toNat - 'A'.toNat + 10)
  else none

/-- The code points read as other characters. -/
def replacements : List (ℕ × Char) :=
  [(0x80, '\u20ac'), (0x82, '\u201a'), (0x83, '\u0192'), (0x84, '\u201e'), (0x85, '\u2026'),
    (0x86, '\u2020'), (0x87, '\u2021'), (0x88, '\u02c6'), (0x89, '\u2030'), (0x8a, '\u0160'),
    (0x8b, '\u2039'), (0x8c, '\u0152'), (0x8e, '\u017d'), (0x91, '\u2018'), (0x92, '\u2019'),
    (0x93, '\u201c'), (0x94, '\u201d'), (0x95, '\u2022'), (0x96, '\u2013'), (0x97, '\u2014'),
    (0x98, '\u02dc'), (0x99, '\u2122'), (0x9a, '\u0161'), (0x9b, '\u203a'), (0x9c, '\u0153'),
    (0x9e, '\u017e'), (0x9f, '\u0178')]

/-- The character of a code point: what is none, NUL among them, is replaced. -/
def codePoint (n : ℕ) : Char :=
  if n = 0 ∨ ¬n.isValidChar then '\ufffd'
  else (replacements.lookup n).getD (Char.ofNat n)

/-- A numeric reference with a mark of so many characters in front of its digits: its
character, and how many characters it has. -/
def numericFrom (base mark : ℕ) (cs : List Char) : Option (List Char × ℕ) :=
  let digits := (cs.drop mark).takeWhile fun c => (digitValue base c).isSome
  let value := (digits.filterMap (digitValue base)).foldl (fun n d => base * n + d) 0
  let semicolon := if cs[mark + digits.length]? = some ';' then 1 else 0
  if digits = [] then none else some ([codePoint value], mark + digits.length + semicolon)

/-- A numeric reference, behind the number sign. -/
def numeric (cs : List Char) : Option (List Char × ℕ) :=
  if cs.head?.any fun c => c = 'x' || c = 'X' then numericFrom 16 1 cs else numericFrom 10 0 cs

/-- The reference behind an ampersand: its text, and how many characters it has. -/
def References.reference : List Char → Option (List Char × ℕ)
  | '#' :: cs => (numeric cs).map fun r => (r.1, r.2 + 1)
  | cs => refs.named cs

/-- The references of a text replaced; `skip` characters have already been read. -/
def References.decodeFrom (skip : ℕ) : List Char → List Char
  | [] => []
  | c :: cs =>
    match skip with
    | skip + 1 => References.decodeFrom skip cs
    | 0 =>
      if c = '&' then
        match refs.reference cs with
        | some (text, n) => text ++ References.decodeFrom n cs
        | none => c :: References.decodeFrom 0 cs
      else c :: References.decodeFrom 0 cs

/-- The references of a text replaced. -/
def References.decode (cs : List Char) : List Char := refs.decodeFrom 0 cs

/-- NUL is read as the replacement character. -/
def withoutNul (c : Char) : Char := if c = '\x00' then '\ufffd' else c

/-- The text of an attribute, out of the characters between its quotes. -/
def References.attributeText (raw : List Char) : List Char :=
  refs.decode ((normalizeNewlines raw).map withoutNul)

variable {refs}

/-! ### Escaped texts -/

/-- What is written for a character. -/
def escapedChar : Char → List Char
  | '&' => "&amp;".toList
  | '<' => "&lt;".toList
  | '>' => "&gt;".toList
  | '"' => "&quot;".toList
  | '\'' => "&#x27;".toList
  | '/' => "&#x2F;".toList
  | c => [c]

/-- A text with its special characters escaped. -/
def escaped (cs : List Char) : List Char := cs.flatMap escapedChar

@[simp] theorem escaped_cons (c : Char) (cs : List Char) :
    escaped (c :: cs) = escapedChar c ++ escaped cs := rfl

/-- The special characters. -/
def specials : List Char := ['&', '<', '>', '"', '\'', '/']

theorem escapedChar_of_notMem {c : Char} (h : c ∉ specials) : escapedChar c = [c] := by
  unfold escapedChar
  split
  case h_7 => rfl
  all_goals exact absurd (by decide) h

/-- Characters that are read are gone. -/
theorem decodeFrom_append (a b : List Char) :
    refs.decodeFrom a.length (a ++ b) = refs.decodeFrom 0 b := by
  induction a with
  | nil => rfl
  | cons c a ih => exact ih

/-- Nothing behind a semicolon belongs to a name. -/
theorem longest_of_ended {seen : List Char} (cs : List Char)
    (h : ∃ name more, more ≠ [] ∧ seen = name ++ ';' :: more) : refs.longest seen cs = none := by
  obtain ⟨name, more, hmore, rfl⟩ := h
  induction cs generalizing more with
  | nil => rw [References.longest, refs.ends name more hmore, Option.map_none]
  | cons c cs ih =>
    rw [References.longest, refs.ends name more hmore, Option.map_none, Option.or_none]
    simpa using ih (more ++ [c]) (by simp)

/-- A name that ends in a semicolon is read as itself. -/
theorem named_of_find {name text : List Char} (h : refs.find (name ++ [';']) = some text)
    (cs : List Char) :
    refs.named (name ++ ';' :: cs) = some (text, name.length + 1) := by
  have hend : refs.longest (name ++ [';']) cs = some (name ++ [';'], text) := by
    cases cs with
    | nil => rw [References.longest, h, Option.map_some]
    | cons c cs =>
      have hnone : refs.longest (name ++ [';'] ++ [c]) cs = none :=
        longest_of_ended cs ⟨name, [c], by simp, by simp⟩
      rw [References.longest, hnone, h, Option.map_some, Option.none_or]
  have hlongest : ∀ seen rest, name = seen ++ rest →
      refs.longest seen (rest ++ ';' :: cs) = some (name ++ [';'], text) := by
    intro seen rest
    induction rest generalizing seen with
    | nil =>
      rintro rfl
      rw [List.append_nil] at hend
      rw [List.nil_append, References.longest, List.append_nil, hend, Option.some_or]
    | cons c rest ih =>
      intro heq
      rw [List.cons_append, References.longest, ih (seen ++ [c]) (by simpa using heq),
        Option.some_or]
  rw [References.named, hlongest [] name rfl]
  simp

/-- A reference is replaced by its text. -/
theorem decodeFrom_reference {body text cs : List Char}
    (h : refs.reference (body ++ cs) = some (text, body.length)) :
    refs.decodeFrom 0 ('&' :: (body ++ cs)) = text ++ refs.decodeFrom 0 cs := by
  rw [References.decodeFrom]
  simp only [if_true, h, decodeFrom_append]

/-- A character that starts no reference is left. -/
theorem decodeFrom_cons {c : Char} (h : c ≠ '&') (cs : List Char) :
    refs.decodeFrom 0 (c :: cs) = c :: refs.decodeFrom 0 cs := by
  rw [References.decodeFrom]
  simp only [if_neg h]

/-- A text with no ampersand has no references. -/
theorem decode_of_notMem {cs : List Char} (h : '&' ∉ cs) : refs.decode cs = cs := by
  unfold References.decode
  induction cs with
  | nil => rfl
  | cons c cs ih =>
    obtain ⟨hc, hcs⟩ : '&' ≠ c ∧ '&' ∉ cs := by simpa using h
    rw [decodeFrom_cons (Ne.symm hc), ih hcs]

/-- **An escaped character is read back**, whatever follows it. -/
theorem decodeFrom_escapedChar (c : Char) (cs : List Char) :
    refs.decodeFrom 0 (escapedChar c ++ cs) = c :: refs.decodeFrom 0 cs := by
  unfold escapedChar
  split
  · exact @decodeFrom_reference refs "amp;".toList _ _
      (@named_of_find refs "amp".toList _ refs.amp cs)
  · exact @decodeFrom_reference refs "lt;".toList _ _
      (@named_of_find refs "lt".toList _ refs.lt cs)
  · exact @decodeFrom_reference refs "gt;".toList _ _
      (@named_of_find refs "gt".toList _ refs.gt cs)
  · exact @decodeFrom_reference refs "quot;".toList _ _
      (@named_of_find refs "quot".toList _ refs.quot cs)
  · exact @decodeFrom_reference refs "#x27;".toList _ _ rfl
  · exact @decodeFrom_reference refs "#x2F;".toList _ _ rfl
  · next hamp _ _ _ _ _ => exact decodeFrom_cons hamp cs

theorem decode_escaped (cs : List Char) : refs.decode (escaped cs) = cs := by
  unfold References.decode
  induction cs with
  | nil => rfl
  | cons c cs ih => rw [escaped_cons, decodeFrom_escapedChar, ih]

/-- The characters that references are written with. -/
def isReferenceChar (c : Char) : Bool := c.isAlphanum || c = '&' || c = '#' || c = ';'

/-- What is written for a character is the character, or a reference. -/
theorem mem_escapedChar {c d : Char} (h : d ∈ escapedChar c) :
    d = c ∧ c ∉ specials ∨ c ∈ specials ∧ isReferenceChar d = true := by
  by_cases hc : c ∈ specials
  · have hall : specials.all (fun c => (escapedChar c).all isReferenceChar) = true := by decide
    exact Or.inr ⟨hc, List.all_eq_true.mp (List.all_eq_true.mp hall c hc) d h⟩
  · rw [escapedChar_of_notMem hc, List.mem_singleton] at h
    exact Or.inl ⟨h, hc⟩

/-- A character that is not used for references is there if it was, and is not special. -/
theorem mem_of_mem_escaped {d : Char} {cs : List Char} (hd : isReferenceChar d = false)
    (h : d ∈ escaped cs) : d ∈ cs ∧ d ∉ specials := by
  obtain ⟨c, hc, hmem⟩ := List.mem_flatMap.mp h
  rcases mem_escapedChar hmem with ⟨rfl, hspecial⟩ | ⟨-, href⟩
  · exact ⟨hc, hspecial⟩
  · rw [hd] at href
    cases href

/-- No special character but those of the references is left. -/
theorem notMem_escaped {d : Char} (hd : isReferenceChar d = false) (hspecial : d ∈ specials)
    (cs : List Char) : d ∉ escaped cs :=
  fun h => (mem_of_mem_escaped hd h).2 hspecial

/-- An escaped text begins with a line feed if the text does. -/
theorem eq_cons_of_escaped_eq {cs rest : List Char} (h : escaped cs = '\n' :: rest) :
    ∃ tail, cs = '\n' :: tail := by
  cases cs with
  | nil => cases h
  | cons c cs =>
    have hmem : '\n' ∈ escapedChar c := by
      have hne : escapedChar c ≠ [] := by unfold escapedChar; split <;> simp
      obtain ⟨d, ds, heq⟩ := List.exists_cons_of_ne_nil hne
      rw [escaped_cons, heq, List.cons_append] at h
      rw [heq, (List.cons.inj h).1]
      exact List.mem_cons_self
    rcases mem_escapedChar hmem with ⟨rfl, -⟩ | ⟨-, href⟩
    · exact ⟨cs, rfl⟩
    · exact absurd href (by decide)

/-- Escaping and normalizing line breaks do not meddle with each other. -/
theorem normalizeNewlines_escaped (cs : List Char) :
    normalizeNewlines (escaped cs) = escaped (normalizeNewlines cs) := by
  fun_induction normalizeNewlines cs with
  | case1 => rfl
  | case2 cs ih =>
    have hfeed : escaped ('\n' :: normalizeNewlines cs) = '\n' :: escaped (normalizeNewlines cs) :=
      rfl
    rw [hfeed, ← ih]
    rfl
  | case3 cs hcs ih =>
    have hfeed : escaped ('\n' :: normalizeNewlines cs) = '\n' :: escaped (normalizeNewlines cs) :=
      rfl
    rw [hfeed, ← ih]
    rcases normalizeNewlines_return (escaped cs) with h | ⟨rest, heq, -⟩
    · exact h
    · obtain ⟨tail, rfl⟩ := eq_cons_of_escaped_eq heq
      exact (hcs tail rfl).elim
  | case4 c cs hpair hc ih =>
    have hreturn : '\r' ∉ escapedChar c := by
      intro h
      rcases mem_escapedChar h with ⟨rfl, -⟩ | ⟨-, href⟩
      · exact hc rfl
      · exact absurd href (by decide)
    rw [escaped_cons, escaped_cons, normalizeNewlines_append hreturn, ih]

theorem map_withoutNul_escaped (cs : List Char) :
    (escaped cs).map withoutNul = escaped (cs.map withoutNul) := by
  induction cs with
  | nil => rfl
  | cons c cs ih =>
    have hchar : (escapedChar c).map withoutNul = escapedChar (withoutNul c) := by
      by_cases hc : c ∈ specials
      · have hall : specials.all
            (fun c => (escapedChar c).map withoutNul = escapedChar (withoutNul c)) = true := by
          decide
        exact of_decide_eq_true (List.all_eq_true.mp hall c hc)
      · have hnul : withoutNul c ∉ specials := by
          unfold withoutNul
          split
          · decide
          · exact hc
        rw [escapedChar_of_notMem hc, escapedChar_of_notMem hnul, List.map_singleton]
    rw [escaped_cons, List.map_append, hchar, ih, List.map_cons, escaped_cons]

/-- What an escaped text is read as. -/
theorem attributeText_escaped (cs : List Char) :
    refs.attributeText (escaped cs) = (normalizeNewlines cs).map withoutNul := by
  rw [References.attributeText, normalizeNewlines_escaped, map_withoutNul_escaped, decode_escaped]

theorem nul_notMem_map_withoutNul (cs : List Char) : '\x00' ∉ cs.map withoutNul := by
  intro h
  obtain ⟨c, -, hc⟩ := List.mem_map.mp h
  unfold withoutNul at hc
  split at hc
  · exact absurd hc (by decide)
  · next hne => exact hne hc

theorem map_withoutNul_eq_self {cs : List Char} (h : '\x00' ∉ cs) : cs.map withoutNul = cs := by
  have hid : ∀ c ∈ cs, withoutNul c = id c := by
    intro c hc
    have hne : c ≠ '\x00' := fun heq => h (heq ▸ hc)
    simp [withoutNul, hne]
  rw [List.map_congr_left hid, List.map_id]

/-- A plain text is read as itself. -/
theorem attributeText_eq_self {cs : List Char} (hamp : '&' ∉ cs) (hreturn : '\r' ∉ cs)
    (hnul : '\x00' ∉ cs) : refs.attributeText cs = cs := by
  rw [References.attributeText, normalizeNewlines_eq_self_iff.mpr hreturn,
    map_withoutNul_eq_self hnul, decode_of_notMem hamp]

/-- **An escaped text is read back exactly if it has no carriage return and no NUL.** -/
theorem attributeText_escaped_eq_iff {cs : List Char} :
    refs.attributeText (escaped cs) = cs ↔ '\r' ∉ cs ∧ '\x00' ∉ cs := by
  rw [attributeText_escaped]
  constructor
  · intro h
    refine ⟨fun hreturn => ?_, h ▸ nul_notMem_map_withoutNul _⟩
    -- a carriage return would have to come out of one
    rw [← h] at hreturn
    obtain ⟨c, hc, heq⟩ := List.mem_map.mp hreturn
    unfold withoutNul at heq
    split at heq
    · exact absurd heq (by decide)
    · exact return_notMem_normalizeNewlines cs (heq ▸ hc)
  · rintro ⟨hreturn, hnul⟩
    rw [normalizeNewlines_eq_self_iff.mpr hreturn, map_withoutNul_eq_self hnul]

/-! ### Texts that are not read as themselves -/

/-- What reading a text makes less of: its characters, those that are replaced counting more. -/
def weight : List Char → ℕ
  | [] => 0
  | c :: cs => (if c = '\r' ∨ c = '\x00' then 3 else 2) + weight cs

@[simp] theorem weight_nil : weight [] = 0 := rfl

@[simp] theorem weight_cons (c : Char) (cs : List Char) :
    weight (c :: cs) = (if c = '\r' ∨ c = '\x00' then 3 else 2) + weight cs := rfl

theorem weight_append (a b : List Char) : weight (a ++ b) = weight a + weight b := by
  induction a with
  | nil => simp
  | cons c a ih => simp only [List.cons_append, weight_cons, ih, Nat.add_assoc]

theorem length_le_weight (cs : List Char) : 2 * cs.length ≤ weight cs := by
  induction cs with
  | nil => simp
  | cons c cs ih =>
    rw [weight_cons, List.length_cons]
    split <;> omega

theorem weight_of_printable {cs : List Char} (h : '\r' ∉ cs ∧ '\x00' ∉ cs) :
    weight cs = 2 * cs.length := by
  induction cs with
  | nil => simp
  | cons c cs ih =>
    have hc : ¬(c = '\r' ∨ c = '\x00') := by
      rintro (rfl | rfl)
      · exact h.1 List.mem_cons_self
      · exact h.2 List.mem_cons_self
    have hrest := ih ⟨fun hr => h.1 (List.mem_cons_of_mem c hr),
      fun hn => h.2 (List.mem_cons_of_mem c hn)⟩
    rw [weight_cons, if_neg hc, hrest, List.length_cons]
    omega

/-- A text `t` that comes out of `a` is `a`, or less. -/
def Reduced (t a : List Char) : Prop := t = a ∨ weight t < weight a

theorem Reduced.le {t a : List Char} (h : Reduced t a) : weight t ≤ weight a := by
  rcases h with rfl | h
  · exact Nat.le_refl _
  · exact Nat.le_of_lt h

theorem Reduced.cons {t a : List Char} (h : Reduced t a) (c : Char) :
    Reduced (c :: t) (c :: a) := by
  rcases h with rfl | h
  · exact Or.inl rfl
  · exact Or.inr (Nat.add_lt_add_left h _)

theorem Reduced.trans {t u a : List Char} (h : Reduced t u) (h' : Reduced u a) : Reduced t a := by
  rcases h with rfl | h
  · exact h'
  · exact Or.inr (Nat.lt_of_lt_of_le h h'.le)

theorem reduced_normalizeNewlines (a : List Char) : Reduced (normalizeNewlines a) a := by
  fun_induction normalizeNewlines a with
  | case1 => exact Or.inl rfl
  | case2 cs ih =>
    have hle := ih.le
    have hreturn : weight ('\r' :: '\n' :: cs) = 3 + (2 + weight cs) := rfl
    have hfeed : weight ('\n' :: normalizeNewlines cs) = 2 + weight (normalizeNewlines cs) := rfl
    exact Or.inr (by omega)
  | case3 cs _ ih =>
    have hle := ih.le
    have hreturn : weight ('\r' :: cs) = 3 + weight cs := rfl
    have hfeed : weight ('\n' :: normalizeNewlines cs) = 2 + weight (normalizeNewlines cs) := rfl
    exact Or.inr (by omega)
  | case4 c cs _ _ ih => exact ih.cons c

theorem reduced_map_withoutNul (a : List Char) : Reduced (a.map withoutNul) a := by
  induction a with
  | nil => exact Or.inl rfl
  | cons c a ih =>
    rw [List.map_cons, withoutNul]
    split
    case isTrue hc =>
      subst hc
      have hle := ih.le
      have hnul : weight ('\x00' :: a) = 3 + weight a := rfl
      have hreplaced : weight ('\ufffd' :: a.map withoutNul) = 2 + weight (a.map withoutNul) := rfl
      exact Or.inr (by omega)
    case isFalse => exact ih.cons c

/-- The longest name is one the text begins with. -/
theorem longest_eq_some {seen cs name text : List Char}
    (h : refs.longest seen cs = some (name, text)) :
    refs.find name = some text ∧ ∃ k, k ≤ cs.length ∧ name = seen ++ cs.take k := by
  induction cs generalizing seen with
  | nil =>
    obtain ⟨t, hfind, heq⟩ := Option.map_eq_some_iff.mp h
    obtain ⟨rfl, rfl⟩ := Prod.mk.inj heq
    exact ⟨hfind, 0, Nat.le_refl _, by simp⟩
  | cons c cs ih =>
    rw [References.longest] at h
    rcases Option.or_eq_some_iff.mp h with hlonger | ⟨-, hseen⟩
    · obtain ⟨hfind, k, hk, rfl⟩ := ih hlonger
      exact ⟨hfind, k + 1, by simpa using hk, by simp⟩
    · obtain ⟨t, hfind, heq⟩ := Option.map_eq_some_iff.mp hseen
      obtain ⟨rfl, rfl⟩ := Prod.mk.inj heq
      exact ⟨hfind, 0, Nat.zero_le _, by simp⟩

/-- A named reference stands for no more than its name. -/
theorem weight_named {cs text : List Char} {n : ℕ} (h : refs.named cs = some (text, n)) :
    weight text ≤ weight (cs.take n) := by
  rw [References.named] at h
  split at h
  case h_1 => cases h
  case h_2 name t heq =>
    obtain ⟨hfind, k, hk, rfl⟩ := longest_eq_some heq
    dsimp only at h
    split at h
    · cases h
    · obtain ⟨rfl, rfl⟩ := Prod.mk.inj (Option.some.inj h)
      have hshort := refs.short _ _ hfind
      have hweight := length_le_weight (cs.take k)
      have hlength : ([] ++ cs.take k).length = k := by simp [hk]
      rw [hlength, weight_of_printable (refs.printable _ _ hfind)]
      simp only [List.nil_append] at hshort
      omega

/-- A numeric reference has one character at least, and stands for one. -/
theorem numericFrom_eq_some {base mark : ℕ} {cs text : List Char} {n : ℕ}
    (h : numericFrom base mark cs = some (text, n)) : text.length = 1 ∧ 1 ≤ n ∧ cs ≠ [] := by
  simp only [numericFrom] at h
  by_cases hdigits : (cs.drop mark).takeWhile (fun c => (digitValue base c).isSome) = []
  · rw [if_pos hdigits] at h
    cases h
  · rw [if_neg hdigits] at h
    obtain ⟨rfl, rfl⟩ := Prod.mk.inj (Option.some.inj h)
    have hpos := List.length_pos_iff.mpr hdigits
    refine ⟨rfl, by omega, ?_⟩
    rintro rfl
    exact hdigits (by simp)

theorem numeric_eq_some {cs text : List Char} {n : ℕ} (h : numeric cs = some (text, n)) :
    text.length = 1 ∧ 1 ≤ n ∧ cs ≠ [] := by
  unfold numeric at h
  split at h
  · exact numericFrom_eq_some h
  · exact numericFrom_eq_some h

/-- A reference weighs more than its text. -/
theorem weight_reference {cs text : List Char} {n : ℕ}
    (h : refs.reference cs = some (text, n)) : weight text < 2 + weight (cs.take n) := by
  unfold References.reference at h
  split at h
  case h_1 cs =>
    obtain ⟨⟨t, m⟩, hnumeric, heq⟩ := Option.map_eq_some_iff.mp h
    obtain ⟨rfl, rfl⟩ := Prod.mk.inj heq
    obtain ⟨hone, hpos, hne⟩ := numeric_eq_some hnumeric
    obtain ⟨c, rfl⟩ := List.length_eq_one_iff.mp hone
    have hlight : weight [c] ≤ 3 := by
      rw [weight_cons, weight_nil]
      split <;> omega
    have hsign := length_le_weight (List.take (m + 1) ('#' :: cs))
    have hcs := List.length_pos_iff.mpr hne
    show weight [c] < 2 + weight (List.take (m + 1) ('#' :: cs))
    rw [List.length_take, List.length_cons] at hsign
    omega
  case h_2 =>
    have hnamed := weight_named h
    omega

theorem reduced_decodeFrom (skip : ℕ) (cs : List Char) :
    Reduced (refs.decodeFrom skip cs) (cs.drop skip) := by
  induction cs generalizing skip with
  | nil => exact Or.inl (by simp [References.decodeFrom])
  | cons c cs ih =>
    cases skip with
    | succ skip => exact ih skip
    | zero =>
      rw [References.decodeFrom, List.drop_zero]
      split
      case isTrue hc =>
        subst hc
        split
        case h_1 text n href =>
          have hrest := (ih n).le
          have htext := weight_reference href
          have hsplit : weight cs = weight (cs.take n) + weight (cs.drop n) := by
            rw [← weight_append, List.take_append_drop]
          have hamp : weight ('&' :: cs) = 2 + weight cs := rfl
          refine Or.inr ?_
          rw [weight_append]
          omega
        case h_2 => exact (ih 0).cons '&'
      case isFalse => exact (ih 0).cons c

/-- **A text that is not read as itself is read as a lesser one.** -/
theorem weight_attributeText_lt {raw : List Char} (h : refs.attributeText raw ≠ raw) :
    weight (refs.attributeText raw) < weight raw := by
  have hreduced : Reduced (refs.attributeText raw) raw :=
    Reduced.trans (reduced_decodeFrom 0 _)
      ((reduced_map_withoutNul _).trans (reduced_normalizeNewlines raw))
  exact hreduced.resolve_left h

end Html
