import BkPlatform.Lib.CharReference
import Mathlib.Data.List.Induction

/-!
# XML documents

How an XML parser finds the elements of a document: start tags with quoted attributes, end tags
that match them, empty tags, text with references, CDATA sections and processing instructions.
Comments and document types are left out, and characters beyond ASCII all count as letters.

A text put together from tags, escaped texts and blank space is read as the elements it was put
together from.

## Main definitions

* `Element` — an element as it is read.
* `decode` — a text with its references replaced.
* `Parser`, `step`, `scan`, `parse` — the parser.
* `startTag`, `endTag`, `cdata` — tags and sections as they are written.
* `Holds` — what a text is read as between a start tag and its end tag.
* `Adds` — a text is read as elements, whatever stands in front of it.

## Main results

* `adds_element` — **an element is read with what its content is read as.**
* `holds_text`, `holds_cdata` — escaped texts and CDATA sections.
* `parse_document` — a document is read as its element.
-/

namespace Xml

open Html (normalizeNewlines normalizeNewlines_eq_self_iff digitValue)

/-! ### Elements -/

/-- An element: its name, its attributes, the text in it and the elements in it. -/
inductive Element
  | mk (name : List Char) (attributes : List (List Char × List Char)) (text : List Char)
      (children : List Element)

namespace Element

def name : Element → List Char
  | mk name _ _ _ => name

/-- The text directly in the element. -/
def text : Element → List Char
  | mk _ _ text _ => text

def children : Element → List Element
  | mk _ _ _ children => children

/-- The value of an attribute. -/
def attr (n : List Char) : Element → Option (List Char)
  | mk _ attributes _ _ => attributes.lookup n

/-- The first element of a name in the element. -/
def child (n : List Char) (e : Element) : Option Element := e.children.find? fun c => c.name == n

@[simp] theorem name_mk (n a t c) : (mk n a t c).name = n := rfl

@[simp] theorem text_mk (n a t c) : (mk n a t c).text = t := rfl

@[simp] theorem children_mk (n a t c) : (mk n a t c).children = c := rfl

@[simp] theorem attr_mk (m n a t c) : (mk n a t c).attr m = a.lookup m := rfl

end Element

/-! ### Characters and references -/

def isSpace (c : Char) : Bool := c = ' ' || c = '\t' || c = '\n' || c = '\r'

/-- A text of blank space. -/
def Blank (cs : List Char) : Prop := cs.all isSpace = true

instance (cs : List Char) : Decidable (Blank cs) := inferInstanceAs (Decidable (_ = _))

/-- The characters a name may begin with. -/
def isNameStart (c : Char) : Bool := c.isAlpha || c = '_' || c = ':' || 0x80 ≤ c.toNat

/-- The characters of names. -/
def isNameChar (c : Char) : Bool := isNameStart c || c.isDigit || c = '-' || c = '.'

/-- The number that digits denote, in a base. -/
def number (base : ℕ) (ds : List Char) : Option ℕ :=
  if ds = [] then none
  else ds.foldlM (fun n d => (digitValue base d).map (base * n + ·)) 0

/-- The character of a number. -/
def charOf (n : ℕ) : Option Char := if n.isValidChar ∧ n ≠ 0 then some (Char.ofNat n) else none

/-- The character that a reference stands for, by what is between the ampersand and the
semicolon. -/
def entity : List Char → Option Char
  | ['l', 't'] => some '<'
  | ['g', 't'] => some '>'
  | ['a', 'm', 'p'] => some '&'
  | ['q', 'u', 'o', 't'] => some '"'
  | ['a', 'p', 'o', 's'] => some '\''
  | '#' :: 'x' :: ds => (number 16 ds).bind charOf
  | '#' :: ds => (number 10 ds).bind charOf
  | _ => none

/-- A text with its references replaced; `seen` is the reference that has begun. -/
def decodeFrom : Option (List Char) → List Char → Option (List Char)
  | none, [] => some []
  | some _, [] => none
  | none, c :: cs =>
    if c = '&' then decodeFrom (some []) cs else (decodeFrom none cs).map (c :: ·)
  | some seen, c :: cs =>
    if c = ';' then (entity seen).bind fun d => (decodeFrom none cs).map (d :: ·)
    else decodeFrom (some (seen ++ [c])) cs

/-- A text with its references replaced, if they are references. -/
def decode (cs : List Char) : Option (List Char) := decodeFrom none cs

/-- The text of characters as they stand in the document. -/
def textOf (raw : List Char) : Option (List Char) := decode (normalizeNewlines raw)

/-- The value of an attribute as it stands in the document; blank space is a space. -/
def valueOf (raw : List Char) : Option (List Char) :=
  decode ((normalizeNewlines raw).map fun c => if isSpace c then ' ' else c)

/-! ### The parser -/

/-- An element that is open: what of it has been read, and the characters behind its last tag. -/
structure Frame where
  name : List Char := []
  attributes : List (List Char × List Char) := []
  text : List Char := []
  raw : List Char := []
  children : List Element := []

/-- Where the parser is; in a tag, with what it has read of it. -/
inductive Place
  | content
  | markup
  | startName (name : List Char)
  | inTag (name : List Char) (attributes : List (List Char × List Char))
  | attrName (name : List Char) (attributes : List (List Char × List Char)) (attr : List Char)
  | afterName (name : List Char) (attributes : List (List Char × List Char)) (attr : List Char)
  | beforeQuote (name : List Char) (attributes : List (List Char × List Char)) (attr : List Char)
  | quoted (name : List Char) (attributes : List (List Char × List Char)) (attr : List Char)
      (quote : Char) (raw : List Char)
  | afterQuote (name : List Char) (attributes : List (List Char × List Char))
  | emptyTag (name : List Char) (attributes : List (List Char × List Char))
  | endName (name : List Char)
  | afterEndName (name : List Char)
  /-- Behind `<!`, with what is still missing of `[CDATA[`. -/
  | declaration (missing : List Char)
  | cdata (raw : List Char)
  /-- Behind `<?`, and whether the last character was a question mark. -/
  | instruction (ending : Bool)
  | failed

/-- The parser, with the elements around the one that is open. -/
structure Parser where
  place : Place
  frame : Frame
  outer : List Frame

/-- The characters behind the last tag are text. -/
def Frame.flushed (f : Frame) : Option Frame :=
  (textOf f.raw).map fun t => { f with text := f.text ++ t, raw := [] }

/-- The element of a frame that is closed. -/
def Frame.element (f : Frame) : Element := .mk f.name f.attributes f.text f.children

def Frame.addChild (f : Frame) (e : Element) : Frame := { f with children := f.children ++ [e] }

namespace Parser

def goTo (p : Parser) (place : Place) : Parser := { p with place := place }

def fail (p : Parser) : Parser := p.goTo .failed

/-- A start tag is complete. -/
def openTag (p : Parser) (name : List Char) (attributes : List (List Char × List Char)) :
    Parser :=
  { place := .content, frame := { name := name, attributes := attributes },
    outer := p.frame :: p.outer }

/-- An end tag is complete. -/
def closeTag (p : Parser) (name : List Char) : Parser :=
  match p.outer with
  | [] => p.fail
  | f :: fs =>
    if name = p.frame.name then
      { place := .content, frame := f.addChild p.frame.element, outer := fs }
    else p.fail

/-- A less-than sign. -/
def flush (p : Parser) : Parser :=
  match p.frame.flushed with
  | some f => { p with place := .markup, frame := f }
  | none => p.fail

end Parser

/-- The characters of a CDATA section so far, if it ends with them. -/
def cdataEnd (raw : List Char) : Option (List Char) :=
  if "]]>".toList <:+ raw then some (raw.take (raw.length - 3)) else none

/-- One character. -/
def step (p : Parser) (c : Char) : Parser :=
  match p.place with
  | .content =>
    if c = '<' then p.flush else { p with frame := { p.frame with raw := p.frame.raw ++ [c] } }
  | .markup =>
    if c = '/' then p.goTo (.endName [])
    else if c = '!' then p.goTo (.declaration ['[', 'C', 'D', 'A', 'T', 'A', '['])
    else if c = '?' then p.goTo (.instruction false)
    else if isNameStart c then p.goTo (.startName [c])
    else p.fail
  | .startName name =>
    if isNameChar c then p.goTo (.startName (name ++ [c]))
    else if isSpace c then p.goTo (.inTag name [])
    else if c = '>' then p.openTag name []
    else if c = '/' then p.goTo (.emptyTag name [])
    else p.fail
  | .inTag name attributes =>
    if isSpace c then p
    else if c = '>' then p.openTag name attributes
    else if c = '/' then p.goTo (.emptyTag name attributes)
    else if isNameStart c then p.goTo (.attrName name attributes [c])
    else p.fail
  | .attrName name attributes attr =>
    if isNameChar c then p.goTo (.attrName name attributes (attr ++ [c]))
    else if isSpace c then p.goTo (.afterName name attributes attr)
    else if c = '=' then p.goTo (.beforeQuote name attributes attr)
    else p.fail
  | .afterName name attributes attr =>
    if isSpace c then p
    else if c = '=' then p.goTo (.beforeQuote name attributes attr)
    else p.fail
  | .beforeQuote name attributes attr =>
    if isSpace c then p
    else if c = '"' ∨ c = '\'' then p.goTo (.quoted name attributes attr c [])
    else p.fail
  | .quoted name attributes attr quote raw =>
    if c = quote then
      match valueOf raw with
      | some value => p.goTo (.afterQuote name (attributes ++ [(attr, value)]))
      | none => p.fail
    else if c = '<' then p.fail
    else p.goTo (.quoted name attributes attr quote (raw ++ [c]))
  | .afterQuote name attributes =>
    if isSpace c then p.goTo (.inTag name attributes)
    else if c = '>' then p.openTag name attributes
    else if c = '/' then p.goTo (.emptyTag name attributes)
    else p.fail
  | .emptyTag name attributes =>
    if c = '>' then (p.openTag name attributes).closeTag name else p.fail
  | .endName name =>
    if isNameChar c then p.goTo (.endName (name ++ [c]))
    else if isSpace c then p.goTo (.afterEndName name)
    else if c = '>' then p.closeTag name
    else p.fail
  | .afterEndName name =>
    if isSpace c then p
    else if c = '>' then p.closeTag name
    else p.fail
  | .declaration missing =>
    match missing with
    | [d] => if c = d then p.goTo (.cdata []) else p.fail
    | d :: missing => if c = d then p.goTo (.declaration missing) else p.fail
    | [] => p.fail
  | .cdata raw =>
    match cdataEnd (raw ++ [c]) with
    | some text =>
      { p with
        place := .content
        frame := { p.frame with text := p.frame.text ++ normalizeNewlines text } }
    | none => p.goTo (.cdata (raw ++ [c]))
  | .instruction ending =>
    if ending ∧ c = '>' then p.goTo .content else p.goTo (.instruction (c = '?'))
  | .failed => p

/-- All characters of a text. -/
def scan (p : Parser) (cs : List Char) : Parser := cs.foldl step p

/-- The parser in the content of an element. -/
def inside (f : Frame) (fs : List Frame) : Parser := ⟨.content, f, fs⟩

/-- The element of a document, around which there may be blank space and instructions. -/
def parse (cs : List Char) : Option Element :=
  let p := scan (inside {} []) cs
  match p.place, p.outer, p.frame.flushed with
  | .content, [], some f =>
    match f.children with
    | [e] => if Blank f.text then some e else none
    | _ => none
  | _, _, _ => none

/-! ### Writing -/

/-- An attribute as it is written. -/
def attributeSource (a : List Char × List Char) : List Char :=
  ' ' :: (a.1 ++ '=' :: '"' :: (a.2 ++ ['"']))

/-- A start tag as it is written. -/
def startTag (name : List Char) (attributes : List (List Char × List Char)) : List Char :=
  '<' :: (name ++ (attributes.flatMap attributeSource ++ ['>']))

/-- An end tag as it is written. -/
def endTag (name : List Char) : List Char := '<' :: '/' :: (name ++ ['>'])

/-- A CDATA section as it is written. -/
def cdata (text : List Char) : List Char := "<![CDATA[".toList ++ text ++ "]]>".toList

/-- A name that is read as itself. -/
def IsName (name : List Char) : Prop :=
  name.head?.any isNameStart = true ∧ name.all isNameChar = true

instance (name : List Char) : Decidable (IsName name) := inferInstanceAs (Decidable (_ ∧ _))

/-- A value that is read as itself. -/
def PlainValue (value : List Char) : Prop :=
  '<' ∉ value ∧ '"' ∉ value ∧ valueOf value = some value

instance (value : List Char) : Decidable (PlainValue value) :=
  inferInstanceAs (Decidable (_ ∧ _))

/-! ### Reading names and values -/

theorem scan_append (p : Parser) (a b : List Char) : scan p (a ++ b) = scan (scan p a) b :=
  List.foldl_append

theorem scan_cons (p : Parser) (c : Char) (cs : List Char) :
    scan p (c :: cs) = scan (step p c) cs := rfl

@[simp] theorem scan_nil (p : Parser) : scan p [] = p := rfl

/-- A place that collects characters. -/
theorem scan_collect (place : List Char → Place) {f : Frame} {fs : List Frame} {cs : List Char}
    (h : ∀ c ∈ cs, ∀ seen, step ⟨place seen, f, fs⟩ c = ⟨place (seen ++ [c]), f, fs⟩)
    (seen : List Char) : scan ⟨place seen, f, fs⟩ cs = ⟨place (seen ++ cs), f, fs⟩ := by
  induction cs generalizing seen with
  | nil => simp
  | cons c cs ih =>
    rw [scan_cons, h c List.mem_cons_self, ih fun d hd => h d (List.mem_cons_of_mem c hd)]
    simp

theorem IsName.exists_cons {name : List Char} (h : IsName name) :
    ∃ c cs, name = c :: cs ∧ isNameStart c = true ∧ ∀ d ∈ cs, isNameChar d = true := by
  obtain ⟨hfirst, hall⟩ := h
  cases name with
  | nil => cases hfirst
  | cons c cs =>
    rw [List.all_cons, Bool.and_eq_true] at hall
    exact ⟨c, cs, rfl, hfirst, List.all_eq_true.mp hall.2⟩

theorem isNameChar_of_isNameStart {c : Char} (h : isNameStart c = true) : isNameChar c = true := by
  simp [isNameChar, h]

/-- A character that no name has. -/
theorem ne_of_isNameChar {c d : Char} (h : isNameChar c = true) (hd : isNameChar d = false) :
    c ≠ d := by
  rintro rfl
  rw [hd] at h
  cases h

theorem isSpace_of_isNameChar {c : Char} (h : isNameChar c = true) : isSpace c = false := by
  by_contra hspace
  simp only [Bool.not_eq_false, isSpace, Bool.or_eq_true, decide_eq_true_eq] at hspace
  rcases hspace with ((rfl | rfl) | rfl) | rfl <;> cases h

section Tags

variable {f : Frame} {fs : List Frame} {name : List Char}
  {attributes : List (List Char × List Char)}

theorem scan_startName (h : IsName name) :
    scan ⟨.markup, f, fs⟩ name = ⟨.startName name, f, fs⟩ := by
  obtain ⟨c, cs, rfl, hc, hcs⟩ := h.exists_cons
  have hchar := isNameChar_of_isNameStart hc
  have hslash : c ≠ '/' := ne_of_isNameChar hchar rfl
  have hbang : c ≠ '!' := ne_of_isNameChar hchar rfl
  have hquery : c ≠ '?' := ne_of_isNameChar hchar rfl
  have hfirst : step ⟨.markup, f, fs⟩ c = ⟨.startName [c], f, fs⟩ := by
    simp only [step, hslash, hbang, hquery, hc, if_false, if_true]
    rfl
  rw [scan_cons, hfirst]
  refine scan_collect .startName (fun d hd seen => ?_) [c]
  simp only [step, hcs d hd, if_true]
  rfl

theorem scan_endName (h : IsName name) :
    scan ⟨.endName [], f, fs⟩ name = ⟨.endName name, f, fs⟩ := by
  refine scan_collect .endName (fun c hc seen => ?_) []
  simp only [step, List.all_eq_true.mp h.2 c hc, if_true]
  rfl

/-- **An attribute is read with its name and its value.** -/
theorem scan_attributeSource {a : List Char × List Char} (hname : IsName a.1)
    (hvalue : PlainValue a.2) {place : Place}
    (hplace : place = .startName name ∧ attributes = [] ∨ place = .afterQuote name attributes) :
    scan ⟨place, f, fs⟩ (attributeSource a) = ⟨.afterQuote name (attributes ++ [a]), f, fs⟩ := by
  obtain ⟨attr, value⟩ := a
  obtain ⟨c, cs, rfl, hc, hcs⟩ := hname.exists_cons
  obtain ⟨hless, hquote, hread⟩ := hvalue
  have hchar := isNameChar_of_isNameStart hc
  have hspace : step ⟨place, f, fs⟩ ' ' = ⟨.inTag name attributes, f, fs⟩ := by
    rcases hplace with ⟨rfl, rfl⟩ | rfl <;> rfl
  have hfirst : step ⟨.inTag name attributes, f, fs⟩ c =
      ⟨.attrName name attributes [c], f, fs⟩ := by
    have hclose : c ≠ '>' := ne_of_isNameChar hchar rfl
    have hslash : c ≠ '/' := ne_of_isNameChar hchar rfl
    simp only [step, isSpace_of_isNameChar hchar, hclose, hslash, hc, if_false, if_true,
      Bool.false_eq_true]
    rfl
  have hattr : scan ⟨.attrName name attributes [c], f, fs⟩ cs =
      ⟨.attrName name attributes (c :: cs), f, fs⟩ := by
    refine scan_collect (.attrName name attributes) (fun d hd seen => ?_) [c]
    simp only [step, hcs d hd, if_true]
    rfl
  have hopen : step (step ⟨.attrName name attributes (c :: cs), f, fs⟩ '=') '"' =
      ⟨.quoted name attributes (c :: cs) '"' [], f, fs⟩ := rfl
  have hcollect : scan ⟨.quoted name attributes (c :: cs) '"' [], f, fs⟩ value =
      ⟨.quoted name attributes (c :: cs) '"' value, f, fs⟩ := by
    refine scan_collect (.quoted name attributes (c :: cs) '"') (fun d hd seen => ?_) []
    have hd1 : d ≠ '"' := fun heq => hquote (heq ▸ hd)
    have hd2 : d ≠ '<' := fun heq => hless (heq ▸ hd)
    simp only [step, hd1, hd2, if_false]
    rfl
  have hclose : step ⟨.quoted name attributes (c :: cs) '"' value, f, fs⟩ '"' =
      ⟨.afterQuote name (attributes ++ [(c :: cs, value)]), f, fs⟩ := by
    simp only [step, hread, if_true]
    rfl
  simp only [attributeSource, List.cons_append]
  rw [scan_cons, hspace, scan_cons, hfirst, scan_append, hattr, scan_cons, scan_cons, hopen,
    scan_append, hcollect, scan_cons, hclose, scan_nil]

/-- The attributes of a start tag, and its end. -/
theorem scan_attributes (h : ∀ a ∈ attributes, IsName a.1 ∧ PlainValue a.2) {place : Place}
    {seen : List (List Char × List Char)}
    (hplace : place = .startName name ∧ seen = [] ∨ place = .afterQuote name seen) :
    scan ⟨place, f, fs⟩ (attributes.flatMap attributeSource ++ ['>']) =
      inside { name := name, attributes := seen ++ attributes } (f :: fs) := by
  induction attributes generalizing place seen with
  | nil =>
    rw [List.append_nil]
    rcases hplace with ⟨rfl, rfl⟩ | rfl <;> rfl
  | cons a attributes ih =>
    obtain ⟨hname, hvalue⟩ := h a List.mem_cons_self
    rw [List.flatMap_cons, List.append_assoc, scan_append,
      scan_attributeSource hname hvalue hplace,
      ih (fun b hb => h b (List.mem_cons_of_mem a hb)) (Or.inr rfl)]
    simp

/-- A start tag opens an element. -/
theorem scan_startTag {f' : Frame} (hname : IsName name)
    (h : ∀ a ∈ attributes, IsName a.1 ∧ PlainValue a.2) (hflush : f.flushed = some f') :
    scan (inside f fs) (startTag name attributes) =
      inside { name := name, attributes := attributes } (f' :: fs) := by
  have hmarkup : step (inside f fs) '<' = ⟨.markup, f', fs⟩ := by
    simp only [step, inside, Parser.flush, hflush, if_true]
  rw [startTag, scan_cons, hmarkup, scan_append, scan_startName hname,
    scan_attributes h (Or.inl ⟨rfl, rfl⟩), List.nil_append]

/-- An end tag closes the element. -/
theorem scan_endTag {g g' : Frame} (hname : IsName g.name) (hflush : g.flushed = some g') :
    scan (inside g (f :: fs)) (endTag g.name) = inside (f.addChild g'.element) fs := by
  have hsame : g'.name = g.name := by
    obtain ⟨t, -, rfl⟩ := Option.map_eq_some_iff.mp hflush
    rfl
  have hmarkup : step (inside g (f :: fs)) '<' = ⟨.markup, g', f :: fs⟩ := by
    simp only [step, inside, Parser.flush, hflush, if_true]
  have hslash : step ⟨.markup, g', f :: fs⟩ '/' = ⟨.endName [], g', f :: fs⟩ := rfl
  have hclose : step ⟨.endName g.name, g', f :: fs⟩ '>' = inside (f.addChild g'.element) fs := by
    simp only [step, Parser.closeTag, hsame, if_true]
    rfl
  rw [endTag, scan_cons, hmarkup, scan_cons, hslash, scan_append, scan_endName hname, scan_cons,
    hclose, scan_nil]

end Tags

/-! ### Texts and blank space -/

theorem decodeFrom_cons {c : Char} (h : c ≠ '&') (cs : List Char) :
    decodeFrom none (c :: cs) = (decodeFrom none cs).map (c :: ·) := by
  rw [decodeFrom, if_neg h]

/-- A text without an ampersand has no references. -/
theorem decode_of_notMem {cs : List Char} (h : '&' ∉ cs) : decode cs = some cs := by
  unfold decode
  induction cs with
  | nil => rfl
  | cons c cs ih =>
    obtain ⟨hc, hcs⟩ : '&' ≠ c ∧ '&' ∉ cs := by simpa using h
    rw [decodeFrom_cons (Ne.symm hc), ih hcs]
    rfl

theorem Blank.append {a b : List Char} (ha : Blank a) (hb : Blank b) : Blank (a ++ b) := by
  unfold Blank at *
  rw [List.all_append, ha, hb]
  rfl

theorem Blank.notMem {a : List Char} (h : Blank a) {c : Char} (hc : isSpace c = false) :
    c ∉ a := by
  intro hmem
  rw [List.all_eq_true.mp h c hmem] at hc
  cases hc

/-- Blank space is read as blank space. -/
theorem Blank.exists_textOf {a : List Char} (h : Blank a) : ∃ t, textOf a = some t ∧ Blank t := by
  have hamp : '&' ∉ normalizeNewlines a := fun hmem =>
    h.notMem rfl (Html.mem_of_mem_normalizeNewlines (by decide) hmem)
  refine ⟨normalizeNewlines a, decode_of_notMem hamp, List.all_eq_true.mpr fun c hc => ?_⟩
  by_cases hfeed : c = '\n'
  · rw [hfeed]
    rfl
  · exact List.all_eq_true.mp h c (Html.mem_of_mem_normalizeNewlines hfeed hc)

/-- A text without a less-than sign is text. -/
theorem scan_text {a : List Char} (h : '<' ∉ a) (f : Frame) (fs : List Frame) :
    scan (inside f fs) a = inside { f with raw := f.raw ++ a } fs := by
  induction a generalizing f with
  | nil => simp
  | cons c a ih =>
    obtain ⟨hc, ha⟩ : '<' ≠ c ∧ '<' ∉ a := by simpa using h
    have hstep : step (inside f fs) c = inside { f with raw := f.raw ++ [c] } fs := by
      simp only [step, inside, if_neg (Ne.symm hc)]
    rw [scan_cons, hstep, ih ha]
    simp

/-! ### What a text is read as -/

/-- Between a start tag and its end tag, the text is read as this text and these elements. -/
def Holds (a t : List Char) (es : List Element) : Prop :=
  ∀ name attributes fs, ∃ g, scan (inside { name := name, attributes := attributes } fs) a =
      inside g fs ∧ g.flushed = some
        { name := name, attributes := attributes, text := t, raw := [], children := es }

/-- Behind blank space, the text adds these elements to those before it, and ends in blank
space. -/
def Adds (a : List Char) (es : List Element) : Prop :=
  ∀ r, Blank r → ∃ t r', Blank t ∧ Blank r' ∧ ∀ f fs, f.raw = r → scan (inside f fs) a =
    inside { f with text := f.text ++ t, raw := r', children := f.children ++ es } fs

theorem adds_nil : Adds [] [] :=
  fun r hr => ⟨[], r, rfl, hr, fun f fs hraw => by subst hraw; simp⟩

theorem adds_blank {a : List Char} (h : Blank a) : Adds a [] := by
  intro r hr
  refine ⟨[], r ++ a, rfl, hr.append h, fun f fs hraw => ?_⟩
  rw [scan_text (h.notMem rfl), hraw]
  simp

theorem Adds.append {a b : List Char} {es gs : List Element} (ha : Adds a es) (hb : Adds b gs) :
    Adds (a ++ b) (es ++ gs) := by
  intro r hr
  obtain ⟨t, r', ht, hr', hscan⟩ := ha r hr
  obtain ⟨u, r'', hu, hr'', hscan'⟩ := hb r' hr'
  refine ⟨t ++ u, r'', ht.append hu, hr'', fun f fs hraw => ?_⟩
  rw [scan_append, hscan f fs hraw, hscan' _ fs rfl]
  simp

/-- Texts one after the other, each of which adds an element of which something is known. -/
theorem exists_adds_flatMap {α : Type*} {f : α → List Char} {P : α → Element → Prop} {l : List α}
    (h : ∀ x ∈ l, ∃ e, P x e ∧ Adds (f x) [e]) :
    ∃ es, List.Forall₂ P l es ∧ Adds (l.flatMap f) es := by
  induction l with
  | nil => exact ⟨[], .nil, adds_nil⟩
  | cons x l ih =>
    obtain ⟨e, he, hadds⟩ := h x List.mem_cons_self
    obtain ⟨es, hes, hrest⟩ := ih fun y hy => h y (List.mem_cons_of_mem x hy)
    rw [List.flatMap_cons]
    exact ⟨e :: es, .cons he hes, hadds.append hrest⟩

/-- Elements in blank space. -/
theorem Adds.holds {a : List Char} {es : List Element} (h : Adds a es) :
    ∃ t, Blank t ∧ Holds a t es := by
  obtain ⟨t, r, ht, hr, hscan⟩ := h [] rfl
  obtain ⟨u, hread, hu⟩ := hr.exists_textOf
  refine ⟨t ++ u, ht.append hu, fun name attributes fs => ⟨_, hscan _ fs rfl, ?_⟩⟩
  simp only [Frame.flushed, hread, Option.map_some, List.nil_append]

/-- A text without a less-than sign, with its references replaced. -/
theorem holds_text {raw t : List Char} (hless : '<' ∉ raw) (hread : textOf raw = some t) :
    Holds raw t [] := by
  intro name attributes fs
  refine ⟨_, scan_text hless _ fs, ?_⟩
  simp only [Frame.flushed, List.nil_append, hread, Option.map_some]

/-- **An element is read with what its content is read as.** -/
theorem adds_element {name : List Char} (hname : IsName name)
    {attributes : List (List Char × List Char)}
    (hattributes : ∀ a ∈ attributes, IsName a.1 ∧ PlainValue a.2) {a t : List Char}
    {es : List Element} (h : Holds a t es) :
    Adds (startTag name attributes ++ a ++ endTag name) [.mk name attributes t es] := by
  intro r hr
  obtain ⟨u, hread, hu⟩ := hr.exists_textOf
  refine ⟨u, [], hu, rfl, fun f fs hraw => ?_⟩
  have hflush : f.flushed = some { f with text := f.text ++ u, raw := [] } := by
    rw [Frame.flushed, hraw, hread]
    rfl
  obtain ⟨g, hscan, hend⟩ := h name attributes ({ f with text := f.text ++ u, raw := [] } :: fs)
  have hg : g.name = name := by
    obtain ⟨v, -, heq⟩ := Option.map_eq_some_iff.mp hend
    exact congrArg Frame.name heq
  rw [scan_append, scan_append, scan_startTag hname hattributes hflush, hscan]
  subst hg
  rw [scan_endTag hname hend]
  rfl

/-! ### CDATA sections -/

/-- A CDATA section does not end within its text. -/
theorem scan_cdataText {text : List Char} (h : ¬ "]]>".toList <:+: text) (f : Frame)
    (fs : List Frame) : scan ⟨.cdata [], f, fs⟩ text = ⟨.cdata text, f, fs⟩ := by
  induction text using List.reverseRecOn with
  | nil => rfl
  | append_singleton text c ih =>
    have hbefore : ¬ "]]>".toList <:+: text := fun hin =>
      h (hin.trans (List.prefix_append text [c]).isInfix)
    have hend : cdataEnd (text ++ [c]) = none := if_neg fun hsuffix => h hsuffix.isInfix
    rw [scan_append, ih hbefore, scan_cons, scan_nil]
    simp only [step, hend]
    rfl

/-- The end of a CDATA section. -/
theorem scan_cdataEnd (text : List Char) (f : Frame) (fs : List Frame) :
    scan ⟨.cdata text, f, fs⟩ "]]>".toList =
      inside { f with text := f.text ++ normalizeNewlines text } fs := by
  have hbracket : ∀ cs : List Char,
      step ⟨.cdata cs, f, fs⟩ ']' = ⟨.cdata (cs ++ [']']), f, fs⟩ := by
    intro cs
    have hnone : cdataEnd (cs ++ [']']) = none := by
      refine if_neg fun hsuffix => ?_
      have hchar := hsuffix.getLast (by decide)
      rw [List.getLast_append_singleton] at hchar
      exact absurd hchar (by decide)
    simp only [step, hnone]
    rfl
  have hclose : cdataEnd (text ++ [']'] ++ [']'] ++ ['>']) = some text := by
    have hsplit : text ++ [']'] ++ [']'] ++ ['>'] = text ++ "]]>".toList := by simp
    rw [cdataEnd, hsplit, if_pos (List.suffix_append text _)]
    simp
  have hcs : "]]>".toList = [']', ']', '>'] := rfl
  rw [hcs, scan_cons, hbracket, scan_cons, hbracket, scan_cons, scan_nil]
  simp only [step, hclose]
  rfl

/-- The word a CDATA section begins with. -/
theorem scan_declaration {ds : List Char} (h : ds ≠ []) (f : Frame) (fs : List Frame) :
    scan ⟨.declaration ds, f, fs⟩ ds = ⟨.cdata [], f, fs⟩ := by
  induction ds with
  | nil => exact absurd rfl h
  | cons d ds ih =>
    cases ds with
    | nil => simp [scan, step, Parser.goTo]
    | cons e ds =>
      have hstep : step ⟨.declaration (d :: e :: ds), f, fs⟩ d =
          ⟨.declaration (e :: ds), f, fs⟩ := by
        simp [step, Parser.goTo]
      rw [scan_cons, hstep, ih (List.cons_ne_nil e ds)]

/-- **A CDATA section is its text.** -/
theorem scan_cdata {text : List Char} (hend : ¬ "]]>".toList <:+: text) {f f' : Frame}
    (hflush : f.flushed = some f') (fs : List Frame) :
    scan (inside f fs) (cdata text) =
      inside { f' with text := f'.text ++ normalizeNewlines text } fs := by
  have hmarkup : step (inside f fs) '<' = ⟨.markup, f', fs⟩ := by
    simp only [step, inside, Parser.flush, hflush, if_true]
  have hopen : scan (inside f fs) "<![CDATA[".toList = ⟨.cdata [], f', fs⟩ := by
    have hcs : "<![CDATA[".toList = ['<', '!', '[', 'C', 'D', 'A', 'T', 'A', '['] := rfl
    have hbang : step ⟨.markup, f', fs⟩ '!' =
        ⟨.declaration ['[', 'C', 'D', 'A', 'T', 'A', '['], f', fs⟩ := rfl
    rw [hcs, scan_cons, hmarkup, scan_cons, hbang, scan_declaration (by simp)]
  unfold cdata
  rw [scan_append, scan_append, hopen, scan_cdataText hend, scan_cdataEnd]

/-- A CDATA section in blank space. -/
theorem holds_cdata {text before after : List Char} (hend : ¬ "]]>".toList <:+: text)
    (hbefore : Blank before) (hafter : Blank after) :
    ∃ t u, Blank t ∧ Blank u ∧
      Holds (before ++ cdata text ++ after) (t ++ normalizeNewlines text ++ u) [] := by
  obtain ⟨t, hread, ht⟩ := hbefore.exists_textOf
  obtain ⟨u, hread', hu⟩ := hafter.exists_textOf
  refine ⟨t, u, ht, hu, fun name attributes fs => ?_⟩
  have hflush : ({ name, attributes, raw := before } : Frame).flushed =
      some { name, attributes, text := t } := by
    simp only [Frame.flushed, hread, Option.map_some, List.nil_append]
  refine ⟨{ name, attributes, text := t ++ normalizeNewlines text, raw := after }, ?_, ?_⟩
  · rw [scan_append, scan_append, scan_text (hbefore.notMem rfl), List.nil_append,
      scan_cdata hend hflush, scan_text (hafter.notMem rfl), List.nil_append]
  · simp only [Frame.flushed, hread', Option.map_some]

/-! ### Documents -/

/-- An instruction in front of the document. -/
theorem scan_instruction {body : List Char} (h : '?' ∉ body) (f : Frame) (fs : List Frame)
    {f' : Frame} (hflush : f.flushed = some f') :
    scan (inside f fs) ("<?".toList ++ body ++ "?>".toList) = inside f' fs := by
  have hopen : scan (inside f fs) "<?".toList = ⟨.instruction false, f', fs⟩ := by
    have hmarkup : step (inside f fs) '<' = ⟨.markup, f', fs⟩ := by
      simp only [step, inside, Parser.flush, hflush, if_true]
    exact (congrArg (scan · "?".toList) hmarkup).trans rfl
  have hbody : scan ⟨.instruction false, f', fs⟩ body = ⟨.instruction false, f', fs⟩ := by
    induction body with
    | nil => rfl
    | cons c body ih =>
      obtain ⟨hc, hbody⟩ : '?' ≠ c ∧ '?' ∉ body := by simpa using h
      have hstep : step ⟨.instruction false, f', fs⟩ c = ⟨.instruction false, f', fs⟩ := by
        simp [step, Parser.goTo, Ne.symm hc]
      rw [scan_cons, hstep, ih hbody]
  rw [scan_append, scan_append, hopen, hbody]
  rfl

/-- **A document is read as its element**, with an instruction and blank space in front. -/
theorem parse_document {instruction a : List Char} {e : Element} (hinstruction : '?' ∉ instruction)
    (h : Adds a [e]) : parse ("<?".toList ++ instruction ++ "?>".toList ++ a) = some e := by
  obtain ⟨t, r, ht, hr, hscan⟩ := h [] rfl
  obtain ⟨u, hread, hu⟩ := hr.exists_textOf
  have hflush : ({} : Frame).flushed = some {} := rfl
  have hend : scan (inside {} []) ("<?".toList ++ instruction ++ "?>".toList ++ a) =
      inside { text := t, raw := r, children := [e] } [] := by
    rw [scan_append, scan_instruction hinstruction {} [] hflush, hscan {} [] rfl]
    rfl
  have hlast : ({ text := t, raw := r, children := [e] } : Frame).flushed =
      some { text := t ++ u, children := [e] } := by
    simp only [Frame.flushed, hread, Option.map_some]
  rw [parse, hend]
  simp only [inside, hlast]
  exact if_pos (ht.append hu)

end Xml
