import BkPlatform.Lib.CharReference

/-!
# The tags of an HTML text

How an HTML parser finds the tags of a text: the start tags with their attributes, whose values
stand in quotes of either kind or in none, and the end tags.  Comments and declarations are left
out.

A text put together from start tags whose values keep clear of their quotes, end tags, and texts
without a less-than sign, is read as those tags.

## Main definitions

* `Tag`, `Place`, `Scanner`, `step`, `scan` — the parser.
* `tags` — the tags of a text.
* `tableRows` — the rows of cells they make, in the body of a table.
* `startTag`, `endTag` — tags as they are written.
* `Emits` — a text is read as tags, whatever stands around it.
* `selfCloses` — whether there is a tag that closes itself in a text.
* `ReadAs` — a text is read as tags of which none closes itself.

## Main results

* `readAs_startTag` — **a start tag is read with the texts of its values.**
* `emits_of_scan` — a text that is read as tags by itself is so anywhere.
* `tableRows_flatMap` — the rows of a body, row by row.
-/

namespace Html

/-! ### The parser -/

/-- A start tag with its attributes, or an end tag. -/
structure Tag where
  isEnd : Bool := false
  name : List Char := []
  attributes : List (List Char × List Char) := []
  deriving DecidableEq, Repr

/-- The value of an attribute; the first one counts. -/
def Tag.attr (tag : Tag) (name : List Char) : Option (List Char) := tag.attributes.lookup name

/-- Where the parser is. -/
inductive Place
  | data
  | tagOpen
  | endTagOpen
  | tagName
  | beforeName
  | attributeName
  | afterName
  | beforeValue
  | quoted (quote : Char)
  | unquoted
  | afterValue
  | selfClosing
  /-- In a comment or declaration. -/
  | declaration
  deriving DecidableEq, Repr

/-- The parser, with the tag and the attribute that it is in. -/
structure Scanner where
  place : Place
  tag : Tag := {}
  name : List Char := []
  value : List Char := []
  tags : List Tag := []
  deriving DecidableEq, Repr

def isSpace (c : Char) : Bool := c = ' ' || c = '\t' || c = '\n' || c = '\x0c' || c = '\r'

namespace Scanner

/-- The tag is complete. -/
def emit (s : Scanner) : Scanner := { place := .data, tags := s.tags ++ [s.tag] }

/-- A new attribute. -/
def startAttribute (s : Scanner) (c : Char) : Scanner :=
  { s with place := .attributeName, name := [withoutNul c.toLower], value := [] }

end Scanner

variable (refs : References)

/-- The attribute is complete. -/
def Scanner.push (s : Scanner) : Scanner :=
  { s with
    tag := { s.tag with attributes := s.tag.attributes ++ [(s.name, refs.decode s.value)] }
    name := [], value := [] }

/-- One character, in front of a name of an attribute. -/
def Scanner.stepBeforeName (s : Scanner) (c : Char) : Scanner :=
  if isSpace c then { s with place := .beforeName }
  else if c = '/' then { s with place := .selfClosing }
  else if c = '>' then s.emit
  else s.startAttribute c

/-- One character. -/
def step (s : Scanner) (c : Char) : Scanner :=
  match s.place with
  | .data => if c = '<' then { s with place := .tagOpen } else s
  | .tagOpen =>
    if c = '/' then { s with place := .endTagOpen }
    else if c.isAlpha then { s with place := .tagName, tag := { name := [c.toLower] } }
    else if c = '!' ∨ c = '?' then { s with place := .declaration }
    else if c = '<' then s
    else { s with place := .data }
  | .endTagOpen =>
    if c.isAlpha then { s with place := .tagName, tag := { isEnd := true, name := [c.toLower] } }
    else if c = '>' then { s with place := .data }
    else { s with place := .declaration }
  | .tagName =>
    if isSpace c then { s with place := .beforeName }
    else if c = '/' then { s with place := .selfClosing }
    else if c = '>' then s.emit
    else { s with tag := { s.tag with name := s.tag.name ++ [withoutNul c.toLower] } }
  | .beforeName => s.stepBeforeName c
  | .attributeName =>
    if isSpace c then { s with place := .afterName }
    else if c = '/' then { s.push refs with place := .selfClosing }
    else if c = '>' then (s.push refs).emit
    else if c = '=' then { s with place := .beforeValue }
    else { s with name := s.name ++ [withoutNul c.toLower] }
  | .afterName =>
    if isSpace c then s
    else if c = '=' then { s with place := .beforeValue }
    else (s.push refs).stepBeforeName c
  | .beforeValue =>
    if isSpace c then s
    else if c = '"' ∨ c = '\'' then { s with place := .quoted c }
    else if c = '>' then (s.push refs).emit
    else { s with place := .unquoted, value := [withoutNul c] }
  | .quoted quote =>
    if c = quote then { s.push refs with place := .afterValue }
    else { s with value := s.value ++ [withoutNul c] }
  | .unquoted =>
    if isSpace c then { s.push refs with place := .beforeName }
    else if c = '>' then (s.push refs).emit
    else { s with value := s.value ++ [withoutNul c] }
  | .afterValue => s.stepBeforeName c
  | .selfClosing => if c = '>' then s.emit else s.stepBeforeName c
  | .declaration => s

/-- All characters of a text. -/
def scan (s : Scanner) (cs : List Char) : Scanner := cs.foldl (step refs) s

/-- The parser between tags. -/
def between (ts : List Tag) : Scanner := { place := .data, tags := ts }

/-- The tags of a text, if there is no comment or declaration in it. -/
def tags (cs : List Char) : Option (List Tag) :=
  let s := scan refs (between []) (normalizeNewlines cs)
  if s.place = .declaration then none else some s.tags

/-! ### The rows of a table -/

/-- The rows so far, and the row that is open. -/
abbrev Rows := List (List Tag) × Option (List Tag)

/-- A tag in the body of a table.  A cell outside a row begins one. -/
def Rows.place (rows : Rows) (tag : Tag) : Option Rows :=
  if tag.name = "tr".toList then
    if tag.isEnd then some (rows.1 ++ rows.2.toList, none)
    else some (rows.1 ++ rows.2.toList, some [])
  else if tag.name = "td".toList then
    if tag.isEnd then some rows
    else some (rows.1, some (rows.2.getD [] ++ [tag]))
  else if tag.name = "div".toList then some rows
  else none

/-- The rows that tags make in the body of a table, each as the start tags of its cells, if
there are no other elements than rows, cells and divisions. -/
def tableRows (ts : List Tag) : Option (List (List Tag)) :=
  (ts.foldlM Rows.place ([], none)).map fun rows => rows.1 ++ rows.2.toList

/-! ### Writing tags -/

/-- An attribute as it is written, in single quotes. -/
def attributeSource (a : List Char × List Char) : List Char :=
  ' ' :: (a.1 ++ '=' :: '\'' :: (a.2 ++ ['\'']))

/-- A start tag as it is written. -/
def startTag (name : List Char) (attributes : List (List Char × List Char)) : List Char :=
  '<' :: (name ++ (attributes.flatMap attributeSource ++ ['>']))

/-- An end tag as it is written. -/
def endTag (name : List Char) : List Char := '<' :: '/' :: (name ++ ['>'])

/-- The characters of plain names. -/
def isNameChar (c : Char) : Bool := c.isLower || c = '-'

/-- A name that is read as itself: small letters, and hyphens behind the first of them. -/
def PlainName (name : List Char) : Prop :=
  name.head?.any Char.isLower = true ∧ name.all isNameChar = true

instance (name : List Char) : Decidable (PlainName name) := inferInstanceAs (Decidable (_ ∧ _))

theorem PlainName.exists_cons {name : List Char} (h : PlainName name) :
    ∃ c cs, name = c :: cs ∧ c.isLower = true ∧ cs.all isNameChar = true := by
  obtain ⟨hfirst, hall⟩ := h
  cases name with
  | nil => cases hfirst
  | cons c cs =>
    rw [List.all_cons, Bool.and_eq_true] at hall
    exact ⟨c, cs, rfl, hfirst, hall.2⟩

/-- No name has a capital letter. -/
theorem toLower_eq_self {c : Char} (h : isNameChar c = true) : c.toLower = c := by
  have hupper : ¬(c.val ≥ 'A'.val ∧ c.val ≤ 'Z'.val) := by
    rintro ⟨hfrom, hle⟩
    have hlower : c.isLower = (decide (c.val ≥ 'a'.val) && decide (c.val ≤ 'z'.val)) := rfl
    simp only [isNameChar, hlower, Bool.or_eq_true, Bool.and_eq_true, decide_eq_true_eq] at h
    rcases h with ⟨hge, -⟩ | rfl
    · exact absurd (UInt32.le_trans hge hle) (by decide)
    · exact absurd hfrom (by decide)
  exact dif_neg hupper

theorem withoutNul_toLower {c : Char} (h : isNameChar c = true) : withoutNul c.toLower = c := by
  have hnul : c ≠ '\x00' := by
    rintro rfl
    cases h
  rw [toLower_eq_self h, withoutNul, if_neg hnul]

theorem isNameChar_of_isLower {c : Char} (h : c.isLower = true) : isNameChar c = true := by
  simp [isNameChar, h]

theorem isAlpha_of_isLower {c : Char} (h : c.isLower = true) : c.isAlpha = true := by
  have halpha : c.isAlpha = (c.isUpper || c.isLower) := rfl
  rw [halpha, h, Bool.or_true]

/-- A character that no name has. -/
theorem ne_of_isNameChar {c d : Char} (h : isNameChar c = true) (hd : isNameChar d = false) :
    c ≠ d := by
  rintro rfl
  rw [hd] at h
  cases h

theorem isSpace_of_isNameChar {c : Char} (h : isNameChar c = true) : isSpace c = false := by
  by_contra hspace
  simp only [Bool.not_eq_false, isSpace, Bool.or_eq_true, decide_eq_true_eq] at hspace
  rcases hspace with (((rfl | rfl) | rfl) | rfl) | rfl <;> cases h

variable {refs : References}

theorem scan_append (s : Scanner) (a b : List Char) :
    scan refs s (a ++ b) = scan refs (scan refs s a) b :=
  List.foldl_append

theorem scan_cons (s : Scanner) (c : Char) (cs : List Char) :
    scan refs s (c :: cs) = scan refs (step refs s c) cs := rfl

@[simp] theorem scan_nil (s : Scanner) : scan refs s [] = s := rfl

/-- The name of a tag goes on. -/
theorem scan_tagName {name : List Char} (h : name.all isNameChar = true) (tag : Tag)
    (us : List Tag) :
    scan refs { place := .tagName, tag := tag, tags := us } name =
      { place := .tagName, tag := { tag with name := tag.name ++ name }, tags := us } := by
  induction name generalizing tag with
  | nil => simp
  | cons c cs ih =>
    obtain ⟨hc, hcs⟩ : isNameChar c = true ∧ cs.all isNameChar = true := by simpa using h
    have hstep : step refs { place := .tagName, tag := tag, tags := us } c =
        { place := .tagName, tag := { tag with name := tag.name ++ [c] }, tags := us } := by
      have hslash : c ≠ '/' := ne_of_isNameChar hc rfl
      have hclose : c ≠ '>' := ne_of_isNameChar hc rfl
      simp only [step, isSpace_of_isNameChar hc, hslash, hclose, withoutNul_toLower hc, if_false,
        Bool.false_eq_true]
    rw [scan_cons, hstep, ih hcs]
    simp

/-- The name of an attribute goes on. -/
theorem scan_attributeName {name : List Char} (h : name.all isNameChar = true) (tag : Tag)
    (seen : List Char) (us : List Tag) :
    scan refs { place := .attributeName, tag := tag, name := seen, tags := us } name =
      { place := .attributeName, tag := tag, name := seen ++ name, tags := us } := by
  induction name generalizing seen with
  | nil => simp
  | cons c cs ih =>
    obtain ⟨hc, hcs⟩ : isNameChar c = true ∧ cs.all isNameChar = true := by simpa using h
    have hstep : step refs { place := .attributeName, tag := tag, name := seen, tags := us } c =
        { place := .attributeName, tag := tag, name := seen ++ [c], tags := us } := by
      have hslash : c ≠ '/' := ne_of_isNameChar hc rfl
      have hclose : c ≠ '>' := ne_of_isNameChar hc rfl
      have hequals : c ≠ '=' := ne_of_isNameChar hc rfl
      simp only [step, isSpace_of_isNameChar hc, hslash, hclose, hequals, withoutNul_toLower hc,
        if_false, Bool.false_eq_true]
    rw [scan_cons, hstep, ih hcs]
    simp

/-- The value of an attribute goes on up to the quote. -/
theorem scan_quoted {value : List Char} (h : '\'' ∉ value) (tag : Tag)
    (name seen : List Char) (us : List Tag) :
    scan refs { place := .quoted '\'', tag := tag, name := name, value := seen, tags := us } value =
      { place := .quoted '\'', tag := tag, name := name, value := seen ++ value.map withoutNul,
        tags := us } := by
  induction value generalizing seen with
  | nil => simp
  | cons c cs ih =>
    obtain ⟨hc, hcs⟩ : '\'' ≠ c ∧ '\'' ∉ cs := by simpa using h
    rw [scan_cons]
    simp only [step, if_neg (Ne.symm hc)]
    rw [ih hcs]
    simp

/-- **An attribute is read with its name and the text of its value.** -/
theorem scan_attributeSource {place : Place} (hplace : place = .tagName ∨ place = .afterValue)
    {a : List Char × List Char} (hname : PlainName a.1) (hvalue : '\'' ∉ a.2) (tag : Tag)
    (us : List Tag) :
    scan refs { place := place, tag := tag, tags := us } (attributeSource a) =
      { place := .afterValue
        tag := { tag with
          attributes := tag.attributes ++ [(a.1, refs.decode (a.2.map withoutNul))] }
        tags := us } := by
  obtain ⟨name, value⟩ := a
  obtain ⟨c, cs, rfl, hc, hcs⟩ := hname.exists_cons
  have hchar := isNameChar_of_isLower hc
  have hspace : step refs { place := place, tag := tag, tags := us } ' ' =
      { place := .beforeName, tag := tag, tags := us } := by
    rcases hplace with rfl | rfl <;> rfl
  have hfirst : step refs { place := .beforeName, tag := tag, tags := us } c =
      { place := .attributeName, tag := tag, name := [c], tags := us } := by
    have hslash : c ≠ '/' := ne_of_isNameChar hchar rfl
    have hclose : c ≠ '>' := ne_of_isNameChar hchar rfl
    simp only [step, Scanner.stepBeforeName, Scanner.startAttribute, isSpace_of_isNameChar hchar,
      hslash, hclose, withoutNul_toLower hchar, if_false, Bool.false_eq_true]
  simp only [attributeSource, List.cons_append]
  rw [scan_cons, hspace, scan_cons, hfirst, scan_append, scan_attributeName hcs, scan_cons,
    scan_cons, scan_append]
  have hopen : step refs (step refs
      { place := .attributeName, tag := tag, name := [c] ++ cs, tags := us } '=') '\'' =
      { place := .quoted '\'', tag := tag, name := [c] ++ cs, tags := us } := rfl
  have hquote : ∀ seen : List Char, step refs
      { place := .quoted '\'', tag := tag, name := [c] ++ cs, value := seen, tags := us } '\'' =
      { place := .afterValue
        tag := { tag with attributes := tag.attributes ++ [([c] ++ cs, refs.decode seen)] }
        tags := us } := fun seen => rfl
  rw [hopen, scan_quoted hvalue, scan_cons, hquote, scan_nil]
  rfl

/-! ### Texts that are read as tags -/

variable (refs) in
/-- The text is read as the tags, whatever stands in front of it and behind it. -/
def Emits (a : List Char) (ts : List Tag) : Prop :=
  ∀ us rest, scan refs (between us) (normalizeNewlines (a ++ rest)) =
    scan refs (between (us ++ ts)) (normalizeNewlines rest)

theorem emits_nil : Emits refs [] [] := fun us rest => by simp

theorem Emits.append {a b : List Char} {ts us : List Tag} (ha : Emits refs a ts)
    (hb : Emits refs b us) : Emits refs (a ++ b) (ts ++ us) := by
  intro vs rest
  rw [List.append_assoc, ha, hb, List.append_assoc]

/-- The tags of a text. -/
theorem Emits.tags_eq {a : List Char} {ts : List Tag} (h : Emits refs a ts) :
    tags refs a = some ts := by
  have hscan : scan refs (between []) (normalizeNewlines a) = between ts := by
    simpa using h [] []
  simp only [tags, hscan]
  rfl

/-- A text without a less-than sign has no tags. -/
theorem emits_text {a : List Char} (h : '<' ∉ a) : Emits refs a [] := by
  intro us rest
  rw [List.append_nil]
  induction a with
  | nil => rfl
  | cons c a ih =>
    obtain ⟨hc, ha⟩ : '<' ≠ c ∧ '<' ∉ a := by simpa using h
    have hstep : ∀ d, d ≠ '<' → ∀ cs, scan refs (between us) (d :: cs) =
        scan refs (between us) cs := by
      intro d hd cs
      rw [scan_cons]
      simp only [between, step, if_neg hd]
    rw [List.cons_append, ← ih ha]
    by_cases hreturn : c = '\r'
    · subst hreturn
      rcases normalizeNewlines_return (a ++ rest) with heq | ⟨-, -, heq⟩
      · rw [heq, hstep _ (by decide)]
      · rw [heq]
    · rw [normalizeNewlines_cons hreturn, hstep _ (Ne.symm hc)]

theorem PlainName.return_notMem {name : List Char} (h : PlainName name) : '\r' ∉ name :=
  fun hmem => absurd (List.all_eq_true.mp h.2 _ hmem) (by decide)

/-- A start tag begins with its name. -/
theorem scan_tagOpen {name : List Char} (h : PlainName name) (us : List Tag) :
    scan refs (between us) ('<' :: name) =
      { place := .tagName, tag := { name := name }, tags := us } := by
  obtain ⟨c, cs, rfl, hc, hcs⟩ := h.exists_cons
  have hchar := isNameChar_of_isLower hc
  have hslash : c ≠ '/' := ne_of_isNameChar hchar rfl
  have hopen : step refs (between us) '<' = { place := .tagOpen, tags := us } := rfl
  have hfirst : step refs { place := .tagOpen, tags := us } c =
      { place := .tagName, tag := { name := [c] }, tags := us } := by
    simp only [step, if_neg hslash, isAlpha_of_isLower hc, if_true, toLower_eq_self hchar]
  rw [scan_cons, hopen, scan_cons, hfirst, scan_tagName hcs]
  rfl

/-- An end tag is read as such. -/
theorem emits_endTag {name : List Char} (h : PlainName name) :
    Emits refs (endTag name) [{ isEnd := true, name := name }] := by
  intro us rest
  have hreturn : '\r' ∉ endTag name := by
    simpa [endTag] using h.return_notMem
  rw [normalizeNewlines_append hreturn, scan_append]
  obtain ⟨c, cs, rfl, hc, hcs⟩ := h.exists_cons
  have hchar := isNameChar_of_isLower hc
  have hopen : step refs (step refs (between us) '<') '/' =
      { place := .endTagOpen, tags := us } := rfl
  have hfirst : step refs { place := .endTagOpen, tags := us } c =
      { place := .tagName, tag := { isEnd := true, name := [c] }, tags := us } := by
    simp only [step, isAlpha_of_isLower hc, if_true, toLower_eq_self hchar]
  rw [endTag, scan_cons, scan_cons, hopen, List.cons_append, scan_cons, hfirst, scan_append,
    scan_tagName hcs]
  rfl

/-- The attributes of a start tag, and its end. -/
theorem scan_attributes {place : Place} (hplace : place = .tagName ∨ place = .afterValue)
    {attributes : List (List Char × List Char)}
    (h : ∀ a ∈ attributes, PlainName a.1 ∧ '\'' ∉ a.2) (tag : Tag) (us : List Tag) :
    scan refs { place := place, tag := tag, tags := us }
        (attributes.flatMap attributeSource ++ ['>']) =
      between (us ++ [{ tag with
        attributes := tag.attributes ++
          attributes.map fun a => (a.1, refs.decode (a.2.map withoutNul)) }]) := by
  induction attributes generalizing place tag with
  | nil =>
    rw [List.map_nil, List.append_nil]
    rcases hplace with rfl | rfl <;> rfl
  | cons a attributes ih =>
    obtain ⟨hname, hvalue⟩ := h a List.mem_cons_self
    rw [List.flatMap_cons, List.append_assoc, scan_append,
      scan_attributeSource hplace hname hvalue,
      ih (Or.inr rfl) fun b hb => h b (List.mem_cons_of_mem a hb)]
    simp

/-- The line breaks of an attribute are those of its value. -/
theorem normalizeNewlines_attributeSource {a : List Char × List Char} (hname : PlainName a.1)
    (rest : List Char) :
    normalizeNewlines (attributeSource a ++ rest) =
      attributeSource (a.1, normalizeNewlines a.2) ++ normalizeNewlines rest := by
  have hreturn : '\r' ∉ ' ' :: (a.1 ++ ['=', '\'']) := by
    simpa using hname.return_notMem
  have hsplit : attributeSource a ++ rest =
      (' ' :: (a.1 ++ ['=', '\''])) ++ (a.2 ++ '\'' :: rest) := by
    simp [attributeSource]
  rw [hsplit, normalizeNewlines_append hreturn, normalizeNewlines_append_cons a.2 (by decide),
    normalizeNewlines_cons (by decide)]
  simp [attributeSource]

/-- The line breaks of a start tag are those of the values. -/
theorem normalizeNewlines_startTag {name : List Char} (hname : PlainName name)
    {attributes : List (List Char × List Char)} (h : ∀ a ∈ attributes, PlainName a.1)
    (rest : List Char) :
    normalizeNewlines (startTag name attributes ++ rest) =
      startTag name (attributes.map fun a => (a.1, normalizeNewlines a.2)) ++
        normalizeNewlines rest := by
  have hopen : '\r' ∉ '<' :: name := by
    simpa using hname.return_notMem
  have hattributes : normalizeNewlines (attributes.flatMap attributeSource ++ '>' :: rest) =
      (attributes.map fun a => (a.1, normalizeNewlines a.2)).flatMap attributeSource ++
        '>' :: normalizeNewlines rest := by
    induction attributes with
    | nil => exact normalizeNewlines_cons (by decide) rest
    | cons a attributes ih =>
      rw [List.flatMap_cons, List.append_assoc,
        normalizeNewlines_attributeSource (h a List.mem_cons_self),
        ih fun b hb => h b (List.mem_cons_of_mem a hb)]
      simp
  have hsplit : startTag name attributes ++ rest =
      ('<' :: name) ++ (attributes.flatMap attributeSource ++ '>' :: rest) := by
    simp [startTag]
  rw [hsplit, normalizeNewlines_append hopen, hattributes]
  simp [startTag]

/-- **A start tag is read with the texts of its values**, if these keep clear of quotes. -/
theorem emits_startTag {name : List Char} (hname : PlainName name)
    {attributes : List (List Char × List Char)}
    (hattributes : ∀ a ∈ attributes, PlainName a.1 ∧ '\'' ∉ a.2) :
    Emits refs (startTag name attributes)
      [{ name := name, attributes := attributes.map fun a => (a.1, refs.attributeText a.2) }] := by
  intro us rest
  rw [normalizeNewlines_startTag hname (fun a ha => (hattributes a ha).1), scan_append]
  have hnormal : ∀ a ∈ attributes.map fun a => (a.1, normalizeNewlines a.2),
      PlainName a.1 ∧ '\'' ∉ a.2 := by
    intro a ha
    obtain ⟨b, hb, rfl⟩ := List.mem_map.mp ha
    obtain ⟨hname, hvalue⟩ := hattributes b hb
    exact ⟨hname, fun hmem => hvalue (mem_of_mem_normalizeNewlines (by decide) hmem)⟩
  have hsplit : startTag name (attributes.map fun a => (a.1, normalizeNewlines a.2)) =
      ('<' :: name) ++
        ((attributes.map fun a => (a.1, normalizeNewlines a.2)).flatMap attributeSource ++
          ['>']) := rfl
  rw [hsplit, scan_append, scan_tagOpen hname, scan_attributes (Or.inl rfl) hnormal, List.map_map]
  rfl

/-- The parser with tags read before. -/
def Scanner.after (us : List Tag) (s : Scanner) : Scanner := { s with tags := us ++ s.tags }

theorem step_after (us : List Tag) (s : Scanner) (c : Char) :
    step refs (s.after us) c = (step refs s c).after us := by
  have hemit : ∀ s : Scanner, (s.after us).emit = s.emit.after us := fun s => by
    simp [Scanner.emit, Scanner.after]
  have hpush : ∀ s : Scanner, Scanner.push refs (s.after us) = (Scanner.push refs s).after us :=
    fun s => rfl
  have hname : ∀ s : Scanner, Scanner.stepBeforeName (s.after us) c =
      (Scanner.stepBeforeName s c).after us := by
    intro s
    unfold Scanner.stepBeforeName
    rw [hemit]
    split_ifs <;> rfl
  have hplace : (s.after us).place = s.place := rfl
  -- in each place, the branches are the same ones
  unfold step
  rw [hplace]
  cases s.place with
  | beforeName => exact hname s
  | afterValue => exact hname s
  | declaration => rfl
  | _ =>
    dsimp only
    split_ifs
    all_goals first
      | rfl
      | exact hemit s
      | exact hname s
      | exact (congrArg Scanner.emit (hpush s)).trans (hemit _)
      | exact (congrArg (Scanner.stepBeforeName · c) (hpush s)).trans (hname _)

theorem scan_after (us : List Tag) (s : Scanner) (cs : List Char) :
    scan refs (s.after us) cs = (scan refs s cs).after us := by
  induction cs generalizing s with
  | nil => rfl
  | cons c cs ih => rw [scan_cons, step_after, ih, scan_cons]

/-- A text that ends a tag and is read as tags by itself is read as these anywhere. -/
theorem emits_of_scan {a : List Char} {ts : List Tag}
    (h : scan refs (between []) (normalizeNewlines (a ++ ['>'])) = between ts) :
    Emits refs (a ++ ['>']) ts := by
  intro us rest
  have hsplit : normalizeNewlines (a ++ ['>'] ++ rest) =
      normalizeNewlines (a ++ ['>']) ++ normalizeNewlines rest := by
    rw [List.append_assoc, List.singleton_append,
      normalizeNewlines_append_cons a (by decide), normalizeNewlines_append_cons a (by decide),
      normalizeNewlines_cons (by decide), normalizeNewlines_cons (by decide)]
    simp
  have hafter : between us = (between []).after us := by simp [between, Scanner.after]
  rw [hsplit, scan_append, hafter, scan_after, h]
  rfl

/-! ### Rows of cells -/

/-- Tags that make one row, whatever rows there are already. -/
def MakesRow (ts cells : List Tag) : Prop :=
  ∀ rows, ts.foldlM Rows.place (rows, none) = some (rows ++ [cells], none)

/-- **Rows one after the other.** -/
theorem tableRows_flatMap {α : Type*} {f cells : α → List Tag} {l : List α}
    (h : ∀ x ∈ l, MakesRow (f x) (cells x)) : tableRows (l.flatMap f) = some (l.map cells) := by
  have hfold : ∀ rows, (l.flatMap f).foldlM Rows.place (rows, none) =
      some (rows ++ l.map cells, none) := by
    intro rows
    induction l generalizing rows with
    | nil => simp
    | cons x l ih =>
      rw [List.flatMap_cons, List.foldlM_append, h x List.mem_cons_self]
      simpa using ih (fun y hy => h y (List.mem_cons_of_mem x hy)) (rows ++ [cells x])
  rw [tableRows, hfold []]
  simp

/-! ### Tags that close themselves -/

/-- There is a slash with a greater-than sign behind it. -/
def selfCloses : List Char → Bool
  | [] => false
  | c :: cs => (c = '/' && cs.head? = some '>') || selfCloses cs

/-- The text adds no such tag to what follows it. -/
def Closed (a : List Char) : Prop := ∀ rest, selfCloses (a ++ rest) = selfCloses rest

theorem Closed.append {a b : List Char} (ha : Closed a) (hb : Closed b) : Closed (a ++ b) := by
  intro rest
  rw [List.append_assoc, ha, hb]

theorem closed_flatMap {α : Type*} {f : α → List Char} {l : List α}
    (h : ∀ x ∈ l, Closed (f x)) : Closed (l.flatMap f) := by
  induction l with
  | nil => exact fun rest => rfl
  | cons x l ih =>
    rw [List.flatMap_cons]
    exact (h x List.mem_cons_self).append (ih fun y hy => h y (List.mem_cons_of_mem x hy))

theorem closed_cons {c : Char} (h : c ≠ '/') {a : List Char} (ha : Closed a) :
    Closed (c :: a) := by
  intro rest
  rw [List.cons_append, selfCloses, ha]
  simp [h]

/-- A text without a slash. -/
theorem closed_of_notMem {a : List Char} (h : '/' ∉ a) : Closed a := by
  induction a with
  | nil => exact fun rest => rfl
  | cons c a ih =>
    obtain ⟨hc, ha⟩ : '/' ≠ c ∧ '/' ∉ a := by simpa using h
    exact closed_cons (Ne.symm hc) (ih ha)

/-- A text with its closing quote. -/
theorem closed_append_quote {a : List Char} (h : selfCloses a = false) :
    Closed (a ++ ['\'']) := by
  intro rest
  induction a with
  | nil => simp [selfCloses]
  | cons c a ih =>
    rw [selfCloses, Bool.or_eq_false_iff] at h
    rw [List.cons_append, List.cons_append, selfCloses, ih h.2]
    have hpair : (decide (c = '/') && (a ++ ['\''] ++ rest).head? = some '>') = false := by
      cases a with
      | nil => simp
      | cons d a => exact h.1
    rw [hpair, Bool.false_or]

theorem PlainName.slash_notMem {name : List Char} (h : PlainName name) : '/' ∉ name :=
  fun hmem => absurd (List.all_eq_true.mp h.2 _ hmem) (by decide)

theorem closed_startTag {name : List Char} (hname : PlainName name)
    {attributes : List (List Char × List Char)}
    (h : ∀ a ∈ attributes, PlainName a.1 ∧ selfCloses a.2 = false) :
    Closed (startTag name attributes) := by
  have hattributes : Closed (attributes.flatMap attributeSource) := by
    refine closed_flatMap fun a ha => ?_
    obtain ⟨hplain, hvalue⟩ := h a ha
    have hopen : Closed (' ' :: (a.1 ++ ['=', '\''])) :=
      closed_of_notMem (by simpa using hplain.slash_notMem)
    simpa [attributeSource] using hopen.append (closed_append_quote hvalue)
  have hopen : Closed ('<' :: name) := closed_of_notMem (by simpa using hname.slash_notMem)
  have hclose : Closed ['>'] := closed_of_notMem (by decide)
  simpa [startTag] using hopen.append (hattributes.append hclose)

theorem closed_endTag {name : List Char} (hname : PlainName name) : Closed (endTag name) := by
  obtain ⟨c, cs, rfl, hc, hcs⟩ := hname.exists_cons
  have hne : c ≠ '>' := ne_of_isNameChar (isNameChar_of_isLower hc) rfl
  have hslash : '/' ∉ c :: (cs ++ ['>']) := by simpa using hname.slash_notMem
  refine closed_cons (by decide) fun rest => ?_
  have hrest := closed_of_notMem hslash rest
  simp only [List.cons_append] at hrest ⊢
  rw [selfCloses, hrest]
  simp [hne]

theorem Closed.selfCloses_eq {a : List Char} (h : Closed a) : selfCloses a = false := by
  have hnil := h []
  rwa [List.append_nil] at hnil

/-! ### Texts put together -/

/-- A value that keeps within its quotes, and closes no tag. -/
def Enclosed (value : List Char) : Prop := '\'' ∉ value ∧ selfCloses value = false

instance (value : List Char) : Decidable (Enclosed value) := inferInstanceAs (Decidable (_ ∧ _))

theorem enclosed_of_notMem {value : List Char} (hquote : '\'' ∉ value) (hslash : '/' ∉ value) :
    Enclosed value :=
  ⟨hquote, (closed_of_notMem hslash).selfCloses_eq⟩

variable (refs) in
/-- The text is read as the tags, whatever stands around it, and none of them closes itself. -/
structure ReadAs (a : List Char) (ts : List Tag) : Prop where
  emits : Emits refs a ts
  closed : Closed a

theorem ReadAs.append {a b : List Char} {ts us : List Tag} (ha : ReadAs refs a ts)
    (hb : ReadAs refs b us) : ReadAs refs (a ++ b) (ts ++ us) :=
  ⟨ha.emits.append hb.emits, ha.closed.append hb.closed⟩

theorem readAs_text {a : List Char} (hless : '<' ∉ a) (hslash : '/' ∉ a) : ReadAs refs a [] :=
  ⟨emits_text hless, closed_of_notMem hslash⟩

theorem readAs_endTag {name : List Char} (h : PlainName name) :
    ReadAs refs (endTag name) [{ isEnd := true, name := name }] :=
  ⟨emits_endTag h, closed_endTag h⟩

/-- **A start tag is read with the texts of its values**, if these keep within their quotes. -/
theorem readAs_startTag {name : List Char} (hname : PlainName name)
    {attributes : List (List Char × List Char)}
    (h : ∀ a ∈ attributes, PlainName a.1 ∧ Enclosed a.2) :
    ReadAs refs (startTag name attributes)
      [{ name := name, attributes := attributes.map fun a => (a.1, refs.attributeText a.2) }] :=
  ⟨emits_startTag hname fun a ha => ⟨(h a ha).1, (h a ha).2.1⟩,
    closed_startTag hname fun a ha => ⟨(h a ha).1, (h a ha).2.2⟩⟩

end Html
