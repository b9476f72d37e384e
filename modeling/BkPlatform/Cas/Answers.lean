import BkPlatform.Lib.Xml
import BkPlatform.Cas.Server

/-!
# What a service reads off an answer

`/serviceValidate`, `/proxyValidate` and `/proxy` answer with an XML document, which the
templates put together with a markup library.  The library is a parameter: it escapes texts, so
that a parser finds no tag in one, and it sets tags apart by blank space.  Each character is
read as one, plain characters as themselves; control characters cannot stand in a document, and
the parser makes line feeds of line breaks.

A service parses the document and looks for the elements of the protocol.  Whatever the username
is, it finds one username, and that one if it is plain; no text can add an element to the answer.

## Main definitions

* `Markup` — the markup library.
* `proxyValidateBody`, `proxyBody`, `validateBody` — the templates.
* `readAnswer` — what a service reads.

## Main results

* `readAnswer_success` — **a service reads the username, the attributes, the proxy-granting
  ticket and the proxies of the answer.**
* `readAnswer_failure`, `readProxyAnswer_success` — and so with the other answers.
* `readValidateAnswer_iff` — when the plain answer of `/validate` is read back.
-/

namespace BkPlatform.Cas

open Xml (Element Blank Holds Adds IsName PlainValue startTag endTag)

/-! ### The markup library -/

/-- A character that stands in a document as it is, but for being escaped. -/
def isPlain (c : Char) : Bool :=
  c = '\t' || c = '\n' || (0x20 ≤ c.toNat && c.toNat < 0x7f) ||
    (0xa0 ≤ c.toNat && c.toNat < 0xfffe) || 0x10000 ≤ c.toNat

/-- The library the templates write with. -/
structure Markup where
  /-- The text of an element as it is written. -/
  escape : List Char → List Char
  /-- The character that one of the text is read as. -/
  char : Char → Char
  /-- What is written in front of a tag at this depth. -/
  indent : ℕ → List Char
  /-- What is written behind a tag at the end of a line. -/
  newline : List Char
  less_notMem_escape : ∀ s, '<' ∉ escape s
  textOf_escape : ∀ s, Xml.textOf (escape s) = some (Html.normalizeNewlines (s.map char))
  char_plain : ∀ c, isPlain c = true → char c = c
  blank_indent : ∀ n, Blank (indent n)
  blank_newline : Blank newline

theorem normalizeNewlines_plain {s : List Char} (h : s.all isPlain = true) :
    Html.normalizeNewlines s = s := by
  refine Html.normalizeNewlines_eq_self_iff.mpr fun hmem => ?_
  exact absurd (List.all_eq_true.mp h _ hmem) (by decide)

namespace Markup

variable (m : Markup)

/-- The text that a text is read as. -/
def shown (s : List Char) : List Char := Html.normalizeNewlines (s.map m.char)

/-- **A plain text is read as it is.** -/
theorem shown_plain {s : List Char} (h : s.all isPlain = true) : m.shown s = s := by
  have hmap : s.map m.char = s.map id :=
    List.map_congr_left fun c hc => m.char_plain c (List.all_eq_true.mp h c hc)
  rw [shown, hmap, List.map_id, normalizeNewlines_plain h]

/-- `tag!` with a text. -/
def tag (depth : ℕ) (name : String) (attributes : List (List Char × List Char)) (text : String) :
    List Char :=
  m.indent depth ++ (startTag name.toList attributes ++ m.escape text.toList ++
    endTag name.toList) ++ m.newline

/-- `tag!` with a block. -/
def block (depth : ℕ) (name : String) (attributes : List (List Char × List Char))
    (body : List Char) : List Char :=
  m.indent depth ++ (startTag name.toList attributes ++ (m.newline ++ body ++ m.indent depth) ++
    endTag name.toList) ++ m.newline

/-- `cdata!`. -/
def cdata (depth : ℕ) (text : String) : List Char :=
  m.indent depth ++ Xml.cdata text.toList ++ m.newline

/-- `instruct!`, and the document. -/
def document (body : List Char) : List Char :=
  "<?".toList ++ "xml version=\"1.0\" encoding=\"UTF-8\"".toList ++ "?>".toList ++
    (m.newline ++ body)

end Markup

/-! ### The templates -/

/-- The value of an extra attribute: a string, a number with its text, or anything else with
its YAML. -/
inductive AttributeValue
  | string (s : String)
  | numeric (text : String)
  | other (yaml : String)
  deriving DecidableEq, Repr

/-- What the template of a validation is given. -/
structure Success where
  username : String
  extraAttributes : Option (List (String × AttributeValue))
  pgtiou : Option String
  proxies : List String
  deriving DecidableEq, Repr

/-- `namespace_aware_key`. -/
def namespaceAwareKey (key : String) : String :=
  if key.toList.take 4 = "cas:".toList then key else "cas:" ++ key

/-- `xmlns:cas`. -/
def xmlns : List (List Char × List Char) :=
  [("xmlns:cas".toList, "http://www.yale.edu/tp/cas".toList)]

/-- The code as it is written. -/
def ErrorCode.symbol : ErrorCode → String
  | .invalidRequest => "INVALID_REQUEST"
  | .invalidTicket => "INVALID_TICKET"
  | .invalidService => "INVALID_SERVICE"
  | .internalError => "INTERNAL_ERROR"
  | .badPgt => "BAD_PGT"

section Templates

variable (m : Markup)

/-- `serialize_extra_attribute`. -/
def serializeExtraAttribute (depth : ℕ) (key : String) : AttributeValue → List Char
  | .string s => m.tag depth key [] s
  | .numeric text => m.tag depth key [] text
  | .other yaml => m.block depth key [] (m.cdata (depth + 1) yaml)

/-- The element `cas:attributes`. -/
def attributesBody (attributes : List (String × AttributeValue)) : List Char :=
  m.block 2 "cas:attributes" [] (attributes.flatMap fun a =>
    serializeExtraAttribute m 3 (namespaceAwareKey a.1) a.2)

/-- The element `cas:proxies`, if there are any. -/
def proxiesBody (proxies : List String) : List Char :=
  if proxies.isEmpty then []
  else m.block 2 "cas:proxies" [] (proxies.flatMap fun proxy => m.tag 3 "cas:proxy" [] proxy)

/-- `proxy_validate.builder` for a success. -/
def proxyValidateBody (s : Success) : List Char :=
  m.document (m.block 0 "cas:serviceResponse" xmlns
    (m.block 1 "cas:authenticationSuccess" []
      (m.tag 2 "cas:user" [] s.username ++
        (s.extraAttributes.elim [] (attributesBody m) ++
          (s.pgtiou.elim [] (m.tag 2 "cas:proxyGrantingTicket" []) ++
            proxiesBody m s.proxies)))))

/-- `proxy.builder` for a success. -/
def proxyBody (pt : String) : List Char :=
  m.document (m.block 0 "cas:serviceResponse" xmlns
    (m.block 1 "cas:proxySuccess" [] (m.tag 2 "cas:proxyTicket" [] pt)))

/-- Either template for a failure, in the element of this name. -/
def failureBody (name : String) (error : Error) : List Char :=
  m.document (m.block 0 "cas:serviceResponse" xmlns
    (m.tag 1 name [("code".toList, error.code.symbol.toList)] error.message))

end Templates

/-- `validate.erb`. -/
def validateBody : Option String → List Char
  | some username => "yes\n".toList ++ username.toList ++ "\n".toList
  | none => "no\n\n".toList

/-! ### Reading -/

/-- What a service reads off the answer to a validation. -/
inductive Reading
  | success (user : List Char) (attributes : Option (List (List Char × List Char)))
      (pgtiou : Option (List Char)) (proxies : List (List Char))
  | failure (code message : List Char)
  deriving DecidableEq, Repr

/-- A service looks for the elements of the protocol in the document. -/
def readElement (e : Element) : Option Reading :=
  if e.name = "cas:authenticationSuccess".toList then do
    let user ← e.child "cas:user".toList
    let attributes := (e.child "cas:attributes".toList).map fun a =>
      a.children.map fun c => (c.name, c.text)
    let pgtiou := (e.child "cas:proxyGrantingTicket".toList).map Element.text
    let proxies := (e.child "cas:proxies".toList).elim [] fun p => p.children.map Element.text
    some (.success user.text attributes pgtiou proxies)
  else if e.name = "cas:authenticationFailure".toList then
    (e.attr "code".toList).map fun code => .failure code e.text
  else none

/-- The answer in the document. -/
def serviceResponse (body : List Char) : Option Element := do
  let root ← Xml.parse body
  if root.name = "cas:serviceResponse".toList then root.children.head? else none

/-- What a service reads off the answer to a validation. -/
def readAnswer (body : List Char) : Option Reading := (serviceResponse body).bind readElement

/-- The proxy ticket in the answer of `/proxy`, or the code of the error. -/
def readProxyAnswer (body : List Char) : Option (Except (List Char) (List Char)) :=
  (serviceResponse body).bind fun e =>
    if e.name = "cas:proxySuccess".toList then
      (e.child "cas:proxyTicket".toList).map fun pt => .ok pt.text
    else if e.name = "cas:proxyFailure".toList then (e.attr "code".toList).map .error
    else none

/-- The username in the answer of `/validate`: the second line, if the first is `yes`. -/
def readValidateAnswer (body : List Char) : Option (List Char) :=
  if "yes\n".toList <+: body then some ((body.drop 4).takeWhile fun c => c != '\n') else none

/-! ### Tags are read as elements -/

section Tags

variable (m : Markup) {name : String} {attributes : List (List Char × List Char)}

theorem adds_tag (depth : ℕ) (hname : IsName name.toList)
    (h : ∀ a ∈ attributes, IsName a.1 ∧ PlainValue a.2) (text : String) :
    Adds (m.tag depth name attributes text)
      [.mk name.toList attributes (m.shown text.toList) []] := by
  have htext := Xml.holds_text (m.less_notMem_escape text.toList) (m.textOf_escape text.toList)
  exact ((Xml.adds_blank (m.blank_indent depth)).append (Xml.adds_element hname h htext)).append
    (Xml.adds_blank m.blank_newline)

theorem adds_block (depth : ℕ) (hname : IsName name.toList)
    (h : ∀ a ∈ attributes, IsName a.1 ∧ PlainValue a.2) {body : List Char} {es : List Element}
    (hbody : Adds body es) :
    ∃ t, Adds (m.block depth name attributes body) [.mk name.toList attributes t es] := by
  have hinner : Adds (m.newline ++ body ++ m.indent depth) es := by
    simpa using ((Xml.adds_blank m.blank_newline).append hbody).append
      (Xml.adds_blank (m.blank_indent depth))
  obtain ⟨t, -, hholds⟩ := hinner.holds
  exact ⟨t, ((Xml.adds_blank (m.blank_indent depth)).append
    (Xml.adds_element hname h hholds)).append (Xml.adds_blank m.blank_newline)⟩

/-- A document is read as the element in it. -/
theorem parse_document {body : List Char} {e : Element} (h : Adds body [e]) :
    Xml.parse (m.document body) = some e :=
  Xml.parse_document (by decide) ((Xml.adds_blank m.blank_newline).append h)

/-- The answer is the element in the document. -/
theorem serviceResponse_eq {body : List Char} {e : Element} (h : Adds body [e]) :
    serviceResponse (m.document (m.block 0 "cas:serviceResponse" xmlns body)) = some e := by
  have hxmlns : ∀ a ∈ xmlns, IsName a.1 ∧ PlainValue a.2 := by decide
  have hname : IsName "cas:serviceResponse".toList := by decide
  obtain ⟨t, hblock⟩ := adds_block m 0 hname hxmlns h
  rw [serviceResponse, parse_document m hblock]
  rfl

end Tags

/-! ### Answers are read back -/

/-- What a service reads for the value of an attribute. -/
inductive SeenValue (m : Markup) : AttributeValue → List Char → Prop
  | string (s : String) : SeenValue m (.string s) (m.shown s.toList)
  | numeric (text : String) : SeenValue m (.numeric text) (m.shown text.toList)
  | other (yaml : String) {t u : List Char} (ht : Blank t) (hu : Blank u) :
      SeenValue m (.other yaml) (t ++ Html.normalizeNewlines yaml.toList ++ u)

/-- What a service reads for an attribute. -/
def SeenAttribute (m : Markup) (a : String × AttributeValue) (b : List Char × List Char) : Prop :=
  b.1 = (namespaceAwareKey a.1).toList ∧ SeenValue m a.2 b.2

/-- The value of an attribute is plain. -/
def AttributeValue.Plain : AttributeValue → Prop
  | string s => s.toList.all isPlain = true
  | numeric text => text.toList.all isPlain = true
  | other yaml => yaml.toList.all isPlain = true

/-- All texts of an answer are plain. -/
structure Success.Plain (s : Success) : Prop where
  username : s.username.toList.all isPlain = true
  values : ∀ a ∈ s.extraAttributes.getD [], a.2.Plain
  pgtiou : ∀ pgtiou ∈ s.pgtiou, pgtiou.toList.all isPlain = true
  proxies : ∀ proxy ∈ s.proxies, proxy.toList.all isPlain = true

/-- The value of an attribute as it is, or its YAML in blank space. -/
inductive ExactValue : AttributeValue → List Char → Prop
  | string (s : String) : ExactValue (.string s) s.toList
  | numeric (text : String) : ExactValue (.numeric text) text.toList
  | other (yaml : String) {t u : List Char} (ht : Blank t) (hu : Blank u) :
      ExactValue (.other yaml) (t ++ yaml.toList ++ u)

/-- An attribute as it is. -/
def ExactAttribute (a : String × AttributeValue) (b : List Char × List Char) : Prop :=
  b.1 = (namespaceAwareKey a.1).toList ∧ ExactValue a.2 b.2

/-- A plain attribute is read as it is. -/
theorem SeenAttribute.exact {m : Markup} {a : String × AttributeValue} {b : List Char × List Char}
    (h : SeenAttribute m a b) (hplain : a.2.Plain) : ExactAttribute a b := by
  obtain ⟨key, value⟩ := a
  obtain ⟨key', value'⟩ := b
  obtain ⟨hkey, hvalue⟩ := h
  refine ⟨hkey, ?_⟩
  change SeenValue m value value' at hvalue
  cases hvalue with
  | string s =>
    rw [m.shown_plain hplain]
    exact .string s
  | numeric text =>
    rw [m.shown_plain hplain]
    exact .numeric text
  | other yaml ht hu =>
    rw [normalizeNewlines_plain hplain]
    exact .other yaml ht hu

/-- The attributes can be written: the keys are made of characters of names, and no CDATA
section ends within a value. -/
def Writable (attributes : List (String × AttributeValue)) : Prop :=
  ∀ a ∈ attributes, a.1.toList.all Xml.isNameChar = true ∧
    ∀ yaml, a.2 = .other yaml → ¬ "]]>".toList <:+: yaml.toList

theorem isName_namespaceAwareKey {key : String} (h : key.toList.all Xml.isNameChar = true) :
    IsName (namespaceAwareKey key).toList := by
  unfold namespaceAwareKey
  split
  · next hprefix =>
    refine ⟨?_, h⟩
    have hhead : key.toList.head? = (key.toList.take 4).head? := by
      rw [List.head?_take]
      rfl
    rw [hhead, hprefix]
    decide
  · rw [String.toList_append]
    refine ⟨rfl, ?_⟩
    rw [List.all_append, h]
    rfl

section Answers

variable (m : Markup)

theorem exists_adds_attribute (depth : ℕ) {a : String × AttributeValue}
    (hkey : a.1.toList.all Xml.isNameChar = true)
    (hcdata : ∀ yaml, a.2 = .other yaml → ¬ "]]>".toList <:+: yaml.toList) :
    ∃ e, SeenAttribute m a (e.name, e.text) ∧
      Adds (serializeExtraAttribute m depth (namespaceAwareKey a.1) a.2) [e] := by
  have hname := isName_namespaceAwareKey hkey
  have hnone : ∀ a ∈ ([] : List (List Char × List Char)), IsName a.1 ∧ PlainValue a.2 := by simp
  obtain ⟨key, value⟩ := a
  cases value with
  | string s => exact ⟨_, ⟨rfl, .string s⟩, adds_tag m depth hname hnone s⟩
  | numeric text => exact ⟨_, ⟨rfl, .numeric text⟩, adds_tag m depth hname hnone text⟩
  | other yaml =>
    have hbefore : Blank (m.newline ++ m.indent (depth + 1)) :=
      m.blank_newline.append (m.blank_indent (depth + 1))
    have hafter : Blank (m.newline ++ m.indent depth) :=
      m.blank_newline.append (m.blank_indent depth)
    obtain ⟨t, u, ht, hu, hholds⟩ := Xml.holds_cdata (hcdata yaml rfl) hbefore hafter
    refine ⟨.mk (namespaceAwareKey key).toList [] (t ++ Html.normalizeNewlines yaml.toList ++ u) [],
      ⟨rfl, .other yaml ht hu⟩, ?_⟩
    have helement := Xml.adds_element hname hnone hholds
    have hblock := ((Xml.adds_blank (m.blank_indent depth)).append helement).append
      (Xml.adds_blank m.blank_newline)
    simpa [serializeExtraAttribute, Markup.block, Markup.cdata] using hblock

/-- The elements of the protocol without attributes. -/
theorem noAttributes : ∀ a ∈ ([] : List (List Char × List Char)), IsName a.1 ∧ PlainValue a.2 := by
  simp

theorem exists_adds_attributes {attributes : List (String × AttributeValue)}
    (h : Writable attributes) : ∃ t es, List.Forall₂ (SeenAttribute m) attributes
        (es.map fun e => (e.name, e.text)) ∧
      Adds (attributesBody m attributes) [.mk "cas:attributes".toList [] t es] := by
  have hname : IsName "cas:attributes".toList := by decide
  obtain ⟨es, hseen, hadds⟩ := Xml.exists_adds_flatMap fun a ha =>
    exists_adds_attribute m 3 (h a ha).1 (h a ha).2
  obtain ⟨t, hblock⟩ := adds_block m 2 hname noAttributes hadds
  exact ⟨t, es, List.forall₂_map_right_iff.mpr hseen, hblock⟩

/-- The proxies are in one element, if there are any. -/
theorem exists_adds_proxies (proxies : List String) :
    ∃ e : Option Element, (∀ p, e = some p → p.name = "cas:proxies".toList) ∧
      (e.elim [] fun p => p.children.map Element.text) =
        proxies.map (fun proxy => m.shown proxy.toList) ∧
      Adds (proxiesBody m proxies) e.toList := by
  unfold proxiesBody
  split
  · next hempty =>
    rw [List.isEmpty_iff.mp hempty]
    exact ⟨none, by simp, rfl, Xml.adds_nil⟩
  · have hproxy : IsName "cas:proxy".toList := by decide
    have hname : IsName "cas:proxies".toList := by decide
    obtain ⟨es, hseen, hadds⟩ := Xml.exists_adds_flatMap
      (P := fun (proxy : String) (e : Element) => m.shown proxy.toList = e.text)
      fun proxy (_ : proxy ∈ proxies) => ⟨_, rfl, adds_tag m 3 hproxy noAttributes proxy⟩
    obtain ⟨t, hblock⟩ := adds_block m 2 hname noAttributes hadds
    refine ⟨some _, fun _ heq => by rw [← Option.some.inj heq]; rfl, ?_, hblock⟩
    have hmap : List.Forall₂ Eq (proxies.map fun proxy => m.shown proxy.toList)
        (es.map Element.text) :=
      List.forall₂_map_left_iff.mpr (List.forall₂_map_right_iff.mpr hseen)
    exact (List.forall₂_eq_eq_eq ▸ hmap).symm

end Answers

/-! ### Looking for elements -/

section Children

variable {o : Option Element} {n : List Char}

/-- An element of another name is passed over. -/
theorem find?_toList_append_of_ne {n' : List Char} (h : ∀ e, o = some e → e.name = n')
    (hne : n' ≠ n) (es : List Element) :
    (o.toList ++ es).find? (fun c => c.name == n) = es.find? fun c => c.name == n := by
  cases o with
  | none => rfl
  | some e =>
    have hname : (e.name == n) = false := by rw [h e rfl, beq_eq_false_iff_ne]; exact hne
    simp [hname]

/-- An element that only some place may hold. -/
theorem find?_toList_append_of_eq (h : ∀ e, o = some e → e.name = n) {es : List Element}
    (hes : es.find? (fun c => c.name == n) = none) :
    (o.toList ++ es).find? (fun c => c.name == n) = o := by
  cases o with
  | none => exact hes
  | some e => simp [h e rfl]

/-- What a service reads off the elements of a success. -/
theorem readElement_success {user : Element} {a g p : Option Element}
    (huser : user.name = "cas:user".toList)
    (ha : ∀ e, a = some e → e.name = "cas:attributes".toList)
    (hg : ∀ e, g = some e → e.name = "cas:proxyGrantingTicket".toList)
    (hp : ∀ e, p = some e → e.name = "cas:proxies".toList) (t : List Char) :
    readElement (.mk "cas:authenticationSuccess".toList [] t
        ([user] ++ (a.toList ++ (g.toList ++ p.toList)))) =
      some (.success user.text (a.map fun e => e.children.map fun c => (c.name, c.text))
        (g.map Element.text) (p.elim [] fun e => e.children.map Element.text)) := by
  have hu : ∀ e, some user = some e → e.name = "cas:user".toList := fun e heq =>
    Option.some.inj heq ▸ huser
  have hlast : ∀ {n : List Char}, "cas:proxies".toList ≠ n →
      p.toList.find? (fun c => c.name == n) = none := by
    intro n hne
    rw [← List.append_nil p.toList, find?_toList_append_of_ne hp hne, List.find?_nil]
  have hfirst : ([user] ++ (a.toList ++ (g.toList ++ p.toList))).find?
      (fun c => c.name == "cas:user".toList) = some user :=
    List.find?_cons_of_pos (beq_iff_eq.mpr huser)
  have hbehind : ∀ {n : List Char}, "cas:user".toList ≠ n →
      ([user] ++ (a.toList ++ (g.toList ++ p.toList))).find? (fun c => c.name == n) =
      (a.toList ++ (g.toList ++ p.toList)).find? fun c => c.name == n := fun hne =>
    find?_toList_append_of_ne hu hne _
  have hattributes : (a.toList ++ (g.toList ++ p.toList)).find?
      (fun c => c.name == "cas:attributes".toList) = a := by
    refine find?_toList_append_of_eq ha ?_
    rw [find?_toList_append_of_ne hg (by decide), hlast (by decide)]
  have hgranting : (a.toList ++ (g.toList ++ p.toList)).find?
      (fun c => c.name == "cas:proxyGrantingTicket".toList) = g := by
    rw [find?_toList_append_of_ne ha (by decide)]
    exact find?_toList_append_of_eq hg (hlast (by decide))
  have hproxies : (a.toList ++ (g.toList ++ p.toList)).find?
      (fun c => c.name == "cas:proxies".toList) = p := by
    rw [find?_toList_append_of_ne ha (by decide),
      find?_toList_append_of_ne hg (by decide), ← List.append_nil p.toList]
    exact find?_toList_append_of_eq hp List.find?_nil
  rw [readElement, Element.name_mk, if_pos rfl]
  simp only [Element.child, Element.children_mk, hfirst]
  rw [hbehind (by decide), hbehind (by decide), hbehind (by decide),
    hattributes, hgranting, hproxies]
  rfl

end Children

section Answers

variable (m : Markup)

/-- The attributes are in one element, if they are given. -/
theorem exists_adds_extraAttributes {extraAttributes : Option (List (String × AttributeValue))}
    (h : Writable (extraAttributes.getD [])) :
    ∃ o : Option Element, (∀ e, o = some e → e.name = "cas:attributes".toList) ∧
      Option.Rel (List.Forall₂ (SeenAttribute m)) extraAttributes
        (o.map fun a => a.children.map fun c => (c.name, c.text)) ∧
      Adds (extraAttributes.elim [] (attributesBody m)) o.toList := by
  cases extraAttributes with
  | none => exact ⟨none, by simp, .none, Xml.adds_nil⟩
  | some attributes =>
    obtain ⟨t, es, hseen, hadds⟩ := exists_adds_attributes m h
    exact ⟨some (.mk _ [] t es), fun _ heq => by rw [← Option.some.inj heq]; rfl, .some hseen,
      hadds⟩

/-- The proxy-granting ticket is in one element, if there is one. -/
theorem exists_adds_pgtiou (pgtiou : Option String) :
    ∃ o : Option Element, (∀ e, o = some e → e.name = "cas:proxyGrantingTicket".toList) ∧
      o.map Element.text = pgtiou.map (fun pgtiou => m.shown pgtiou.toList) ∧
      Adds (pgtiou.elim [] (m.tag 2 "cas:proxyGrantingTicket" [])) o.toList := by
  have hname : IsName "cas:proxyGrantingTicket".toList := by decide
  cases pgtiou with
  | none => exact ⟨none, by simp, rfl, Xml.adds_nil⟩
  | some pgtiou =>
    exact ⟨some _, fun _ heq => by rw [← Option.some.inj heq]; rfl, rfl,
      adds_tag m 2 hname noAttributes pgtiou⟩

/-- A service reads one username, one attribute for each, the proxy-granting ticket and the proxies
of the answer, as they are shown. -/
theorem readAnswer_shown {s : Success} (h : Writable (s.extraAttributes.getD [])) :
    ∃ attributes, Option.Rel (List.Forall₂ (SeenAttribute m)) s.extraAttributes attributes ∧
      readAnswer (proxyValidateBody m s) = some (.success (m.shown s.username.toList) attributes
        (s.pgtiou.map fun pgtiou => m.shown pgtiou.toList)
        (s.proxies.map fun proxy => m.shown proxy.toList)) := by
  have huser : IsName "cas:user".toList := by decide
  have hname : IsName "cas:authenticationSuccess".toList := by decide
  obtain ⟨a, ha, hseen, hadds⟩ := exists_adds_extraAttributes m h
  obtain ⟨g, hg, hpgtiou, hadds'⟩ := exists_adds_pgtiou m s.pgtiou
  obtain ⟨p, hp, hproxies, hadds''⟩ := exists_adds_proxies m s.proxies
  have hall := (adds_tag m 2 huser noAttributes s.username).append
    (hadds.append (hadds'.append hadds''))
  obtain ⟨t, hblock⟩ := adds_block m 1 hname noAttributes hall
  refine ⟨_, hseen, ?_⟩
  rw [readAnswer, proxyValidateBody, serviceResponse_eq m hblock, Option.bind_some]
  rw [readElement_success rfl ha hg hp, hpgtiou, hproxies]
  rfl

/-- Plain attributes are read as they are. -/
theorem exact_of_seen {x : Option (List (String × AttributeValue))}
    {l : Option (List (List Char × List Char))}
    (h : Option.Rel (List.Forall₂ (SeenAttribute m)) x l) (hplain : ∀ a ∈ x.getD [], a.2.Plain) :
    Option.Rel (List.Forall₂ ExactAttribute) x l := by
  cases h with
  | none => exact .none
  | some h =>
    have hboth := (List.forall₂_and_left _ _).mpr ⟨hplain, h⟩
    exact .some (hboth.imp fun a b hab => hab.2.exact hab.1)

/-- **A service reads what the answer was made of**: the username, the attributes, the
proxy-granting ticket and the proxies, as they are shown, and exactly these where they are
plain. -/
theorem readAnswer_success {s : Success} (h : Writable (s.extraAttributes.getD [])) :
    ∃ attributes, Option.Rel (List.Forall₂ (SeenAttribute m)) s.extraAttributes attributes ∧
      readAnswer (proxyValidateBody m s) = some (.success (m.shown s.username.toList) attributes
        (s.pgtiou.map fun pgtiou => m.shown pgtiou.toList)
        (s.proxies.map fun proxy => m.shown proxy.toList)) ∧
      (s.Plain → Option.Rel (List.Forall₂ ExactAttribute) s.extraAttributes attributes ∧
        readAnswer (proxyValidateBody m s) = some (.success s.username.toList attributes
          (s.pgtiou.map String.toList) (s.proxies.map String.toList))) := by
  obtain ⟨attributes, hseen, hread⟩ := readAnswer_shown m h
  refine ⟨attributes, hseen, hread, fun hplain => ⟨exact_of_seen m hseen hplain.values, ?_⟩⟩
  have hpgtiou : s.pgtiou.map (fun pgtiou => m.shown pgtiou.toList) = s.pgtiou.map String.toList :=
    Option.map_congr fun pgtiou hmem => m.shown_plain (hplain.pgtiou pgtiou hmem)
  have hproxies : s.proxies.map (fun proxy => m.shown proxy.toList) =
      s.proxies.map String.toList :=
    List.map_congr_left fun proxy hmem => m.shown_plain (hplain.proxies proxy hmem)
  rw [hread, m.shown_plain hplain.username, hpgtiou, hproxies]

theorem plainValue_symbol (code : ErrorCode) :
    ∀ a ∈ [("code".toList, code.symbol.toList)], IsName a.1 ∧ PlainValue a.2 := by
  cases code <;> decide

/-- **A failure is read with its code and its message.** -/
theorem readAnswer_failure (error : Error) :
    readAnswer (failureBody m "cas:authenticationFailure" error) =
      some (.failure error.code.symbol.toList (m.shown error.message.toList)) := by
  have hname : IsName "cas:authenticationFailure".toList := by decide
  rw [readAnswer, failureBody,
    serviceResponse_eq m (adds_tag m 1 hname (plainValue_symbol error.code) error.message)]
  rfl

/-- A service reads the proxy ticket of the answer. -/
theorem readProxyAnswer_success (pt : String) :
    readProxyAnswer (proxyBody m pt) = some (.ok (m.shown pt.toList)) := by
  have hname : IsName "cas:proxySuccess".toList := by decide
  have hticket : IsName "cas:proxyTicket".toList := by decide
  obtain ⟨t, hblock⟩ := adds_block m 1 hname noAttributes (adds_tag m 2 hticket noAttributes pt)
  rw [readProxyAnswer, proxyBody, serviceResponse_eq m hblock]
  rfl

theorem readProxyAnswer_failure (error : Error) :
    readProxyAnswer (failureBody m "cas:proxyFailure" error) =
      some (.error error.code.symbol.toList) := by
  have hname : IsName "cas:proxyFailure".toList := by decide
  rw [readProxyAnswer, failureBody,
    serviceResponse_eq m (adds_tag m 1 hname (plainValue_symbol error.code) error.message)]
  rfl

end Answers

/-! ### The plain answer -/

/-- **The plain answer is read back if and only if the username is on one line.** -/
theorem readValidateAnswer_iff (username : String) :
    readValidateAnswer (validateBody (some username)) = some username.toList ↔
      '\n' ∉ username.toList := by
  have hyes : "yes\n".toList <+: validateBody (some username) :=
    (List.prefix_append _ _).trans (List.prefix_append _ _)
  have hdrop : (validateBody (some username)).drop 4 = username.toList ++ ['\n'] := rfl
  rw [readValidateAnswer, if_pos hyes, hdrop, Option.some.injEq]
  constructor
  · intro h hmem
    rw [← h] at hmem
    have hline := List.all_eq_true.mp List.all_takeWhile _ hmem
    simp at hline
  · intro h
    have hall : ∀ c ∈ username.toList, (c != '\n') = true := by
      intro c hc
      rw [bne_iff_ne]
      rintro rfl
      exact h hc
    rw [List.takeWhile_append_of_pos hall]
    simp

/-- A refused ticket is not taken for a username. -/
theorem readValidateAnswer_none : readValidateAnswer (validateBody none) = none := by
  decide

/-! ### A library -/

/-- A character of a text as it is written. -/
def escapeChar (c : Char) : List Char :=
  if c = '&' then "&amp;".toList
  else if c = '<' then "&lt;".toList
  else if c = '>' then "&gt;".toList
  else [c]

theorem decodeFrom_escapeChar (c : Char) (cs : List Char) :
    Xml.decodeFrom none (escapeChar c ++ cs) = (Xml.decodeFrom none cs).map (c :: ·) := by
  unfold escapeChar
  split
  · next h => rw [h]; rfl
  · next hamp =>
    split
    · next h => rw [h]; rfl
    · split
      · next h => rw [h]; rfl
      · exact Xml.decodeFrom_cons hamp cs

theorem less_notMem_escapeChar (c : Char) : '<' ∉ escapeChar c := by
  unfold escapeChar
  split_ifs with hamp hless hgreater
  · decide
  · decide
  · decide
  · simpa using Ne.symm hless

theorem eq_of_return_mem_escapeChar {c : Char} (h : '\r' ∈ escapeChar c) : c = '\r' := by
  unfold escapeChar at h
  split_ifs at h with hamp hless hgreater
  · exact absurd h (by decide)
  · exact absurd h (by decide)
  · exact absurd h (by decide)
  · exact (List.mem_singleton.mp h).symm

theorem decode_flatMap_escapeChar (cs : List Char) :
    Xml.decode (cs.flatMap escapeChar) = some cs := by
  unfold Xml.decode
  induction cs with
  | nil => rfl
  | cons c cs ih =>
    rw [List.flatMap_cons, decodeFrom_escapeChar, ih]
    rfl

/-- A library that ends lines by line feeds. -/
def plainMarkup : Markup where
  escape := fun s => (Html.normalizeNewlines s).flatMap escapeChar
  char := id
  indent := fun depth => List.replicate (2 * depth) ' '
  newline := ['\n']
  less_notMem_escape := fun s hmem => by
    obtain ⟨c, -, hc⟩ := List.mem_flatMap.mp hmem
    exact less_notMem_escapeChar c hc
  textOf_escape := fun s => by
    have hreturn : '\r' ∉ (Html.normalizeNewlines s).flatMap escapeChar := by
      intro hmem
      obtain ⟨c, hc, hreturn⟩ := List.mem_flatMap.mp hmem
      rw [eq_of_return_mem_escapeChar hreturn] at hc
      exact Html.return_notMem_normalizeNewlines s hc
    rw [Xml.textOf, Html.normalizeNewlines_eq_self_iff.mpr hreturn, decode_flatMap_escapeChar,
      List.map_id]
  char_plain := fun _ _ => rfl
  blank_indent := fun depth => List.all_eq_true.mpr fun c hc => by
    rw [List.eq_of_mem_replicate hc]
    rfl
  blank_newline := rfl

/-- An answer with an attribute that is not a string. -/
def wholeAnswer : Success where
  username := "an & <ngo>"
  extraAttributes := some [("mail", .string "an@app"), ("cas:groups", .other "---\n- <all>\n")]
  pgtiou := some "PGTIOU-5"
  proxies := ["https://app.example/proxy?a=1&b=2"]

theorem plain_wholeAnswer : wholeAnswer.Plain where
  username := by decide
  values := by
    intro a ha
    simp only [wholeAnswer, Option.getD_some, List.mem_cons, List.not_mem_nil, or_false] at ha
    rcases ha with rfl | rfl
    · change "an@app".toList.all isPlain = true
      decide
    · change "---\n- <all>\n".toList.all isPlain = true
      decide
  pgtiou := by decide
  proxies := by decide

theorem readAnswer_wholeAnswer : ∃ attributes,
    Option.Rel (List.Forall₂ ExactAttribute) wholeAnswer.extraAttributes attributes ∧
      readAnswer (proxyValidateBody plainMarkup wholeAnswer) =
        some (.success wholeAnswer.username.toList attributes
          (wholeAnswer.pgtiou.map String.toList) (wholeAnswer.proxies.map String.toList)) := by
  have hwritable : Writable (wholeAnswer.extraAttributes.getD []) := by
    intro a ha
    simp only [wholeAnswer, Option.getD_some, List.mem_cons, List.not_mem_nil, or_false] at ha
    rcases ha with rfl | rfl
    · exact ⟨by decide, fun yaml heq => by cases heq⟩
    · refine ⟨by decide, fun yaml heq => ?_⟩
      obtain rfl := AttributeValue.other.inj heq
      decide
  obtain ⟨attributes, -, -, hexact⟩ := readAnswer_success plainMarkup hwritable
  exact ⟨attributes, hexact plain_wholeAnswer⟩

end BkPlatform.Cas
