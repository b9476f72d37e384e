import Mathlib.Algebra.Order.BigOperators.Group.List
import Mathlib.Algebra.Order.Group.Nat
import Mathlib.Data.List.Induction
import Mathlib.Tactic.Choose
import BkPlatform.Lib.HtmlTags

/-!
# The table in the page

The page shows the items of a collection as rows of a table.  It writes the rows as an HTML text
and lets the browser read that; later it takes the values back from the attributes of the cells.
An object is written as its JSON text before the page looks at its type, so that it comes back as
that text.  For a field that an item does not have, what all objects have by that name is shown.

## Main definitions

* `Page` — jQuery, JSON and the browser.
* `Value`, `Table` — what is shown.
* `bodyTemplate`, `serializeRow` — writing the rows and taking the values back.
* `RowSurvives` — the values of a row come back.
* `Written` — the names and the keys do not break out of their tags.
* `Displayable` — the condition on a row.

## Main results

* `rows_bodyTemplate` — the cells that the browser finds.
* `rowSurvives_iff` — **exactly when the values of a row come back.**
* `val_of_agrees` — what an item says of a value that came back.
-/

namespace BkPlatform.Labrador.TableView

open Html

abbrev Text := List Char

/-! ### What is shown -/

/-- The characters of numbers. -/
def isNumberChar (c : Char) : Bool := c.isAlphanum || c = '+' || c = '-' || c = '.'

/-- A number, by the text it is converted to. -/
structure Number where
  text : Text
  plain : text.all isNumberChar = true

/-- A value of an item; `J` are the objects. -/
inductive Value (J : Type*)
  | str (s : Text)
  | num (n : Number)
  | null
  | obj (o : J)

/-- The values of an item by their fields. -/
abbrev Item (J : Type*) := Text → Option (Value J)

/-- `__proto__`, the name of the prototype. -/
def proto : Text := "__proto__".toList

/-- What the page has from outside.  `htmlPrefilter` is what jQuery does to an HTML text before
the browser reads it: it rewrites tags that close themselves, one by one. -/
structure Page (J : Type*) where
  references : References
  stringify : J → Text
  parse : Text → Option J
  /-- An object put into a text. -/
  toText : J → Text
  /-- What an object has from its prototype: functions, by their sources, as which they are put
  into a text, and the prototype itself. -/
  inherited : Text → Option (Value J)
  inherited_source : ∀ field, field ≠ proto → ∀ val ∈ inherited field,
    ∃ source, val = .str source ∧ source ≠ [] ∧ '\r' ∉ source ∧ '\x00' ∉ source
  isNumeric : Value J → Bool
  htmlPrefilter : Text → Text
  htmlPrefilter_eq : ∀ html, selfCloses html = false → htmlPrefilter html = html
  htmlPrefilter_append : ∀ a html,
    htmlPrefilter (a ++ ['>'] ++ html) = htmlPrefilter (a ++ ['>']) ++ htmlPrefilter html
  htmlPrefilter_last : ∀ a, ∃ b, htmlPrefilter (a ++ ['>']) = b ++ ['>']

variable {J : Type*} (page : Page J)

/-- `item[field]`. -/
def Page.get (item : Item J) (field : Text) : Option (Value J) :=
  (item field).or (page.inherited field)

/-- A value put into a text. -/
def Value.text : Value J → Text
  | str s => s
  | num n => n.text
  | null => "null".toList
  | obj o => page.toText o

/-- A value that may be missing put into a text. -/
def interpolate (value : Option (Value J)) : Text :=
  match value with
  | none => "undefined".toList
  | some value => value.text page

/-! ### Writing the rows -/

/-- `replace` of one character by a text, everywhere. -/
def replace (c : Char) (text s : Text) : Text :=
  s.flatMap fun d => if d = c then text else [d]

/-- `_.escape`. -/
def escape (s : Text) : Text :=
  replace '/' "&#x2F;".toList (replace '\'' "&#x27;".toList (replace '"' "&quot;".toList
    (replace '>' "&gt;".toList (replace '<' "&lt;".toList (replace '&' "&amp;".toList s)))))

/-- How often a character counts in a length. -/
def utf16Size (c : Char) : ℕ := if c.toNat < 0x10000 then 1 else 2

/-- `length`. -/
def utf16Length (s : Text) : ℕ := s.foldl (fun n c => n + utf16Size c) 0

/-- `substring(0, limit)`; what is left of a character that is cut in two is shown as the
replacement character. -/
def substring : ℕ → Text → Text
  | 0, _ => []
  | _, [] => []
  | 1, c :: _ => if utf16Size c = 1 then [c] else ['\ufffd']
  | limit + 2, c :: s => c :: substring (limit + 2 - utf16Size c) s
  termination_by structural _ s => s

/-- `truncate`. -/
def truncate (s : Text) (limit : ℕ) : Text :=
  let endWith := "...".toList
  if utf16Length s ≤ limit + utf16Length endWith then s else substring limit s ++ endWith

/-- `maxChars`. -/
def maxChars : ℕ := 120

/-- `fieldTypeOfVal`. -/
def fieldTypeOfVal (val : Value J) : Text :=
  if page.isNumeric val then "number".toList
  else
    match val with
    | .obj _ => "json".toList
    | .null => "json".toList
    | _ => "string".toList

/-- `parseValue`. -/
def parseValue (val : Option (Value J)) : Value J :=
  match val with
  | none => .str []
  | some .null => .str []
  | some (.obj o) => .str (page.stringify o)
  | some val => val

def td : Text := "td".toList
def tr : Text := "tr".toList
def div : Text := "div".toList
def dataType : Text := "data-type".toList
def dataField : Text := "data-field".toList
def dataExpanded : Text := "data-expanded".toList
def dataValue : Text := "data-value".toList
def dataId : Text := "data-id".toList
def className : Text := "class".toList

/-- The start tag of a cell. -/
def cellStart (type field expanded : Text) (val : Value J) : Text :=
  startTag td [(dataType, type), (dataField, field), (dataExpanded, expanded),
    (dataValue, escape (val.text page))]

/-- `cellTemplate`; no null comes here, so `truncate` and `_.escape` get the same text. -/
def cellTemplate (type field expanded : Text) (val : Value J) : Text :=
  cellStart page type field expanded val ++
    "\n  ".toList ++
    startTag div [(className, "value".toList)] ++ escape (truncate (val.text page) maxChars) ++
    endTag div ++
    "\n  ".toList ++
    startTag div [(className, "truncated".toList)] ++ escape (truncate (val.text page) 16) ++
    endTag div ++
    "\n".toList ++
    endTag td

/-- The items to show. -/
structure Table (J : Type*) where
  fields : List Text
  primaryKey : Option Text
  expandedFields : List Text
  items : List (Item J)

/-- `primaryKeyField`. -/
def Table.primaryKeyField (table : Table J) : Option Text :=
  (table.fields.filter fun field => some field = table.primaryKey).head?

/-- `id`, put into a text. -/
def Table.id (table : Table J) (item : Item J) : Text :=
  interpolate page (page.get item (table.primaryKeyField.getD "undefined".toList))

/-- The start tag of a row. -/
def Table.rowTag (table : Table J) (count : ℕ) (item : Item J) : Text :=
  startTag tr [(dataId, table.id page item),
    (className, if count % 2 = 0 then [] else "odd".toList)]

/-- What is written for `data-expanded`. -/
def Table.expanded (table : Table J) (field : Text) : Text :=
  if table.expandedFields.contains field then "true".toList else "false".toList

/-- The cell of a field. -/
def Table.cell (table : Table J) (item : Item J) (field : Text) : Text :=
  let val := parseValue page (page.get item field)
  cellTemplate page (fieldTypeOfVal page val) field (table.expanded field) val

/-- `processRows`. -/
def Table.processRow (table : Table J) (count : ℕ) (item : Item J) : Text :=
  table.rowTag page count item ++ table.fields.flatMap (table.cell page item) ++ endTag tr

/-- `bodyTemplate`; the items are taken from the queue one after the other. -/
def Table.bodyTemplate (table : Table J) : Text :=
  table.items.zipIdx.flatMap fun p => table.processRow page p.2 p.1

/-! ### Taking the values back -/

/-- The rows that the browser makes of an HTML text appended to the body of the table, by the
start tags of their cells. -/
def Page.rows (html : Text) : Option (List (List Tag)) :=
  (tags page.references (page.htmlPrefilter html)).bind tableRows

/-- A value taken back. -/
inductive Read (J : Type*)
  | undefined
  | text (s : Text)
  | object (o : J)

/-- The attributes of an item taken back, as far as they are its own. -/
abbrev Attributes (J : Type*) := Text → Option (Read J)

/-- `attributes[key] = value`; the prototype is no attribute. -/
def Attributes.assign (attributes : Attributes J) (key : Text) (value : Read J) : Attributes J :=
  if key = proto then attributes
  else fun k => if k = key then some value else attributes k

/-- The field and the value of a cell, if there is no error. -/
def readCell (cell : Tag) : Option (Text × Read J) :=
  let field := (cell.attr dataField).getD "undefined".toList
  let value := cell.attr dataValue
  if cell.attr dataType = some "json".toList then
    (value.bind page.parse).map fun o => (field, .object o)
  else
    match value with
    | none => some (field, .undefined)
    | some value => some (field, .text value)

/-- `serializeRow`. -/
def serializeRow (row : List Tag) : Option (Attributes J) :=
  row.foldlM
    (fun attributes cell => (readCell page cell).map fun r => attributes.assign r.1 r.2)
    fun _ => none

/-- The value comes back: a number as its text, null and a missing value as the empty text, and
an object as an object equal to it. -/
def Agrees : Option (Value J) → Read J → Prop
  | none, r => r = .text []
  | some .null, r => r = .text []
  | some (.str s), r => r = .text s
  | some (.num n), r => r = .text n.text
  | some (.obj o), r => r = .object o

/-- **The values of a row come back**, for every field. -/
def Table.RowSurvives (table : Table J) (i : ℕ) (item : Item J) : Prop :=
  ∃ rows row attributes, page.rows (table.bodyTemplate page) = some rows ∧ rows[i]? = some row ∧
    serializeRow page row = some attributes ∧
    ∀ field ∈ table.fields, ∃ read, attributes field = some read ∧ Agrees (item field) read

/-- The start tag of the cell of a field. -/
def Table.cellStart (table : Table J) (item : Item J) (field : Text) : Text :=
  let val := parseValue page (page.get item field)
  TableView.cellStart page (fieldTypeOfVal page val) field (table.expanded field) val

/-- **The names and the keys do not break out of their tags**: no name of a field has a quote,
jQuery leaves the start tags of the cells alone, and that of each row is read as one tag, as
jQuery hands it over. -/
structure Table.Written (table : Table J) : Prop where
  fields : ∀ field ∈ table.fields, '\'' ∉ field
  cells : ∀ item ∈ table.items, ∀ field ∈ table.fields,
    page.htmlPrefilter (table.cellStart page item field) = table.cellStart page item field
  rows : ∀ i item, table.items[i]? = some item → ∃ attributes,
    scan page.references (between [])
        (normalizeNewlines (page.htmlPrefilter (table.rowTag page i item))) =
      between [{ name := tr, attributes := attributes }]

/-- A value that comes back, or one that is missing and is not inherited either. -/
def Plain (item : Item J) (field : Text) : Prop :=
  match item field with
  | some (.str s) => '\r' ∉ s ∧ '\x00' ∉ s
  | some (.obj _) => False
  | some _ => True
  | none => page.inherited field = none

/-- The condition on a row: its fields are read under their own names, which is not the one of
the prototype, and its values are plain. -/
def Table.Displayable (table : Table J) (item : Item J) : Prop :=
  (∀ field ∈ table.fields, page.references.attributeText field = field ∧ field ≠ proto) ∧
  ∀ field ∈ table.fields, Plain page item field

/-! ### What is written -/

theorem replace_append (c : Char) (text a b : Text) :
    replace c text (a ++ b) = replace c text a ++ replace c text b :=
  List.flatMap_append

theorem escape_append (a b : Text) : escape (a ++ b) = escape a ++ escape b := by
  simp only [escape, replace_append]

theorem escape_singleton (c : Char) : escape [c] = escapedChar c := by
  by_cases h : c ∈ specials
  · have hall : specials.all (fun c => escape [c] = escapedChar c) = true := by decide
    exact of_decide_eq_true (List.all_eq_true.mp hall c h)
  · have hkeep : ∀ d ∈ specials, ∀ text, replace d text [c] = [c] := by
      intro d hd text
      have hne : c ≠ d := fun heq => h (heq ▸ hd)
      simp [replace, hne]
    rw [escapedChar_of_notMem h, escape, hkeep '&' (by decide), hkeep '<' (by decide),
      hkeep '>' (by decide), hkeep '"' (by decide), hkeep '\'' (by decide),
      hkeep '/' (by decide)]

/-- The six replacements escape all characters at once. -/
theorem escape_eq (s : Text) : escape s = escaped s := by
  induction s with
  | nil => rfl
  | cons c s ih =>
    rw [← List.singleton_append, escape_append, escape_singleton, ih]
    rfl

/-- An escaped text keeps within its quotes. -/
theorem enclosed_escape (s : Text) : Enclosed (escape s) := by
  rw [escape_eq]
  exact enclosed_of_notMem (notMem_escaped rfl (by decide) s) (notMem_escaped rfl (by decide) s)

variable {page} {table : Table J} {item : Item J}

/-- The start tag of a cell as it is read. -/
def cellTag (page : Page J) (type field expanded : Text) (val : Value J) : Tag where
  name := td
  attributes := [(dataType, page.references.attributeText type),
    (dataField, page.references.attributeText field),
    (dataExpanded, page.references.attributeText expanded),
    (dataValue, page.references.attributeText (escape (val.text page)))]

/-- The division in a cell as it is read. -/
def divTags (page : Page J) (name : Text) : List Tag :=
  [{ name := div, attributes := [(className, page.references.attributeText name)] },
    { isEnd := true, name := div }]

/-- The tags behind the start tag of a cell as they are read. -/
def restTags (page : Page J) : List Tag :=
  divTags page "value".toList ++ divTags page "truncated".toList ++ [{ isEnd := true, name := td }]

/-- An escaped text has no tags. -/
theorem readAs_escape (s : Text) : ReadAs page.references (escape s) [] := by
  rw [escape_eq]
  exact readAs_text (notMem_escaped rfl (by decide) s) (notMem_escaped rfl (by decide) s)

/-- A division with an escaped text. -/
theorem readAs_division {name : Text} (h : Enclosed name) (s : Text) :
    ReadAs page.references (startTag div [(className, name)] ++ escape s ++ endTag div)
      (divTags page name) := by
  have hopen := @readAs_startTag page.references div (by decide) [(className, name)]
    (by simpa using ⟨by decide, h⟩)
  exact (hopen.append (readAs_escape s)).append (readAs_endTag (by decide))

/-- What stands behind the start tag of a cell is read as the divisions. -/
theorem readAs_cellRest (val : Value J) :
    ReadAs page.references ("\n  ".toList ++
      (startTag div [(className, "value".toList)] ++ escape (truncate (val.text page) maxChars) ++
        endTag div ++ ("\n  ".toList ++
      (startTag div [(className, "truncated".toList)] ++ escape (truncate (val.text page) 16) ++
        endTag div ++ ("\n".toList ++ endTag td))))) (restTags page) := by
  have hspace : ReadAs page.references "\n  ".toList [] := readAs_text (by decide) (by decide)
  have hbreak : ReadAs page.references "\n".toList [] := readAs_text (by decide) (by decide)
  have hdiv := @readAs_division J page "value".toList (by decide)
    (truncate (val.text page) maxChars)
  have hcut := @readAs_division J page "truncated".toList (by decide)
    (truncate (val.text page) 16)
  have hend := @readAs_endTag page.references td (by decide)
  exact hspace.append (hdiv.append (hspace.append (hcut.append (hbreak.append hend))))

/-- The start tag of a cell whose field has no quote is read as such. -/
theorem emits_cellStart {type field expanded : Text} (htype : Enclosed type)
    (hfield : '\'' ∉ field) (hexpanded : Enclosed expanded) (val : Value J) :
    Emits page.references (cellStart page type field expanded val)
      [cellTag page type field expanded val] :=
  @emits_startTag page.references td (by decide)
    [(dataType, type), (dataField, field), (dataExpanded, expanded),
      (dataValue, escape (val.text page))]
    (by simpa using ⟨⟨by decide, htype.1⟩, ⟨by decide, hfield⟩, ⟨by decide, hexpanded.1⟩,
      by decide, (enclosed_escape _).1⟩)

/-- The type of a parsed value is never that of an object. -/
theorem fieldTypeOfVal_parseValue (val : Option (Value J)) :
    fieldTypeOfVal page (parseValue page val) = "number".toList ∨
      fieldTypeOfVal page (parseValue page val) = "string".toList := by
  unfold fieldTypeOfVal
  split
  · exact Or.inl rfl
  · refine Or.inr ?_
    cases val with
    | none => rfl
    | some val => cases val <;> rfl

theorem enclosed_type (val : Option (Value J)) :
    Enclosed (fieldTypeOfVal page (parseValue page val)) := by
  rcases @fieldTypeOfVal_parseValue J page val with h | h
  · rw [h]
    decide
  · rw [h]
    decide

theorem Table.enclosed_expanded (table : Table J) (field : Text) :
    Enclosed (table.expanded field) := by
  unfold Table.expanded
  split <;> decide

/-- What is written for the class of a row. -/
theorem enclosed_class (i : ℕ) : Enclosed (if i % 2 = 0 then [] else "odd".toList) := by
  split <;> decide

/-- The start tag of the cell of a field as it is read. -/
def Table.tag (table : Table J) (page : Page J) (item : Item J) (field : Text) : Tag :=
  let val := parseValue page (page.get item field)
  cellTag page (fieldTypeOfVal page val) field (table.expanded field) val

/-- Names and keys that keep within their quotes do not break out of their tags. -/
theorem written_of_enclosed (hfields : ∀ field ∈ table.fields, Enclosed field)
    (hkeys : ∀ item ∈ table.items, Enclosed (table.id page item)) : table.Written page where
  fields field hfield := (hfields field hfield).1
  cells item _ field hfield := by
    have hread := @readAs_startTag page.references td (by decide)
      [(dataType, fieldTypeOfVal page (parseValue page (page.get item field))),
        (dataField, field), (dataExpanded, table.expanded field),
        (dataValue, escape ((parseValue page (page.get item field)).text page))]
      (by simpa using ⟨⟨by decide, enclosed_type _⟩, ⟨by decide, hfields field hfield⟩,
        ⟨by decide, table.enclosed_expanded field⟩, by decide, enclosed_escape _⟩)
    exact page.htmlPrefilter_eq _ hread.closed.selfCloses_eq
  rows i item hi := by
    have hread := @readAs_startTag page.references tr (by decide)
      [(dataId, table.id page item), (className, if i % 2 = 0 then [] else "odd".toList)]
      (List.forall_mem_cons.mpr
        ⟨⟨(by decide : PlainName dataId), hkeys item (List.mem_of_getElem? hi)⟩,
          List.forall_mem_singleton.mpr ⟨(by decide : PlainName className), enclosed_class i⟩⟩)
    have hscan := hread.emits [] []
    rw [List.append_nil, normalizeNewlines_nil, scan_nil] at hscan
    rw [Table.rowTag, page.htmlPrefilter_eq _ hread.closed.selfCloses_eq]
    exact ⟨_, hscan⟩

/-! ### What is handed over -/

/-- jQuery hands the text over by itself, and it is read as the tags. -/
structure Page.Shows (page : Page J) (a : Text) (ts : List Tag) : Prop where
  append : ∀ html,
    page.htmlPrefilter (a ++ html) = page.htmlPrefilter a ++ page.htmlPrefilter html
  emits : Emits page.references (page.htmlPrefilter a) ts

theorem shows_nil : page.Shows [] [] := by
  have hnil : page.htmlPrefilter [] = [] := page.htmlPrefilter_eq [] rfl
  exact ⟨fun html => by rw [hnil, List.nil_append, List.nil_append], hnil.symm ▸ emits_nil⟩

theorem Page.Shows.trans {a b : Text} {ts us : List Tag} (ha : page.Shows a ts)
    (hb : page.Shows b us) : page.Shows (a ++ b) (ts ++ us) where
  append html := by rw [List.append_assoc, ha.append, hb.append, ha.append, List.append_assoc]
  emits := by
    rw [ha.append]
    exact ha.emits.append hb.emits

theorem shows_flatMap {α : Type*} {f : α → Text} {g : α → List Tag} {l : List α}
    (h : ∀ x ∈ l, page.Shows (f x) (g x)) : page.Shows (l.flatMap f) (l.flatMap g) := by
  induction l with
  | nil => exact shows_nil
  | cons x l ih =>
    rw [List.flatMap_cons, List.flatMap_cons]
    exact (h x List.mem_cons_self).trans (ih fun y hy => h y (List.mem_cons_of_mem x hy))

/-- A text that ends with a tag. -/
def EndsTag (a : Text) : Prop := ∃ b, a = b ++ ['>']

theorem endsTag_startTag (name : Text) (attributes : List (Text × Text)) :
    EndsTag (startTag name attributes) :=
  ⟨'<' :: (name ++ attributes.flatMap attributeSource), by simp [startTag]⟩

theorem endsTag_endTag (name : Text) : EndsTag (endTag name) := ⟨'<' :: '/' :: name, rfl⟩

theorem EndsTag.append_left {b : Text} (h : EndsTag b) (a : Text) : EndsTag (a ++ b) := by
  obtain ⟨c, rfl⟩ := h
  exact ⟨a ++ c, (List.append_assoc a c ['>']).symm⟩

/-- A text that ends with a tag is handed over by itself. -/
theorem shows_of_emits {a : Text} {ts : List Tag} (hends : EndsTag a)
    (h : Emits page.references (page.htmlPrefilter a) ts) : page.Shows a ts := by
  obtain ⟨b, rfl⟩ := hends
  exact ⟨page.htmlPrefilter_append b, h⟩

/-- One in which no tag closes itself is handed over as it is. -/
theorem shows_of_readAs {a : Text} {ts : List Tag} (hends : EndsTag a)
    (h : ReadAs page.references a ts) : page.Shows a ts := by
  refine shows_of_emits hends ?_
  rw [page.htmlPrefilter_eq _ h.closed.selfCloses_eq]
  exact h.emits

/-- **A cell is read as its start tag, and the divisions.** -/
theorem shows_cell (h : table.Written page) (hitem : item ∈ table.items) {field : Text}
    (hfield : field ∈ table.fields) :
    page.Shows (table.cell page item field) (table.tag page item field :: restTags page) := by
  have hstart : page.Shows (table.cellStart page item field) [table.tag page item field] := by
    refine shows_of_emits (endsTag_startTag _ _) ?_
    rw [h.cells item hitem field hfield]
    exact emits_cellStart (enclosed_type _) (h.fields field hfield)
      (table.enclosed_expanded field) _
  have hrest := shows_of_readAs (.append_left (.append_left (.append_left (.append_left
    (.append_left (endsTag_endTag td) _) _) _) _) _)
    (@readAs_cellRest J page (parseValue page (page.get item field)))
  have hall := hstart.trans hrest
  simp only [Table.cell, cellTemplate, List.append_assoc] at hall ⊢
  exact hall

/-- The tags of a row as they are read. -/
def Table.rowTags (table : Table J) (page : Page J) (item : Item J)
    (attributes : List (Text × Text)) : List Tag :=
  { name := tr, attributes := attributes } ::
    ((table.fields.flatMap fun field => table.tag page item field :: restTags page) ++
      [{ isEnd := true, name := tr }])

/-- **A row is read as its start tag, and the cells of the fields.** -/
theorem shows_processRow (h : table.Written page) {i : ℕ} (hi : table.items[i]? = some item) :
    ∃ attributes, page.Shows (table.processRow page i item)
      (table.rowTags page item attributes) := by
  obtain ⟨attributes, hscan⟩ := h.rows i item hi
  have hopen : page.Shows (table.rowTag page i item)
      [{ name := tr, attributes := attributes }] := by
    have hends : EndsTag (table.rowTag page i item) := endsTag_startTag _ _
    refine shows_of_emits hends ?_
    -- as it is handed over, the tag still ends where it did
    obtain ⟨a, ha⟩ := hends
    obtain ⟨b, hb⟩ := page.htmlPrefilter_last a
    rw [ha, hb] at hscan ⊢
    exact emits_of_scan hscan
  have hcells := shows_flatMap fun field hfield =>
    shows_cell h (List.mem_of_getElem? hi) hfield
  have hend := shows_of_readAs (endsTag_endTag tr) (@readAs_endTag page.references tr (by decide))
  exact ⟨attributes, (hopen.trans hcells).trans hend⟩

/-- The tags of one cell make one cell. -/
theorem place_cell (rows : List (List Tag)) (cells : List Tag) (field : Text) :
    (table.tag page item field :: restTags page).foldlM Rows.place (rows, some cells) =
      some (rows, some (cells ++ [table.tag page item field])) := rfl

/-- The tags of a row make one row of the cells. -/
theorem makesRow_rowTags (attributes : List (Text × Text)) :
    MakesRow (table.rowTags page item attributes) (table.fields.map (table.tag page item)) := by
  intro rows
  have hcells : ∀ (fields : List Text) (cells : List Tag),
      (fields.flatMap fun field => table.tag page item field :: restTags page).foldlM Rows.place
        (rows, some cells) = some (rows, some (cells ++ fields.map (table.tag page item))) := by
    intro fields
    induction fields with
    | nil => simp
    | cons field fields ih =>
      intro cells
      rw [List.flatMap_cons, List.foldlM_append, place_cell]
      simpa using ih (cells ++ [table.tag page item field])
  have hopen : Rows.place (rows, none) { name := tr, attributes := attributes } =
      some (rows ++ [], some []) := rfl
  have hclose : ∀ cells : List Tag, Rows.place (rows, some cells) { isEnd := true, name := tr } =
      some (rows ++ [cells], none) := fun cells => rfl
  rw [Table.rowTags, List.foldlM_cons, hopen, List.append_nil, Option.bind_eq_bind,
    Option.bind_some, List.foldlM_append, hcells, Option.bind_eq_bind, Option.bind_some,
    List.nil_append, List.foldlM_cons, hclose]
  rfl

/-- **The browser finds the cells of the fields, row by row.** -/
theorem rows_bodyTemplate (h : table.Written page) :
    page.rows (table.bodyTemplate page) =
      some (table.items.map fun item => table.fields.map (table.tag page item)) := by
  have hmem : ∀ p ∈ table.items.zipIdx, table.items[p.2]? = some p.1 :=
    fun p hp => List.mem_zipIdx_iff_getElem?.mp hp
  have hrows : ∀ p : Item J × ℕ, ∃ attributes, p ∈ table.items.zipIdx →
      page.Shows (table.processRow page p.2 p.1) (table.rowTags page p.1 attributes) := by
    intro p
    by_cases hp : p ∈ table.items.zipIdx
    · obtain ⟨attributes, hshows⟩ := shows_processRow h (hmem p hp)
      exact ⟨attributes, fun _ => hshows⟩
    · exact ⟨[], fun hp' => absurd hp' hp⟩
  choose attributes hshows using hrows
  have hbody : page.Shows (table.bodyTemplate page)
      (table.items.zipIdx.flatMap fun p => table.rowTags page p.1 (attributes p)) :=
    shows_flatMap fun p hp => hshows p hp
  rw [Page.rows, hbody.emits.tags_eq, Option.bind_some,
    tableRows_flatMap fun p _ => makesRow_rowTags (attributes p)]
  have hfst := congrArg (List.map fun item => table.fields.map (table.tag page item))
    (List.zipIdx_map_fst 0 table.items)
  rw [List.map_map] at hfst
  exact congrArg some hfst

/-! ### What is taken back -/

/-- The text that comes back for a field. -/
def taken (page : Page J) (item : Item J) (field : Text) : Text :=
  page.references.attributeText (escape ((parseValue page (page.get item field)).text page))

/-- A cell gives its text back, under the name that its field is read as. -/
theorem readCell_tag (field : Text) :
    readCell page (table.tag page item field) =
      some (page.references.attributeText field, .text (taken page item field)) := by
  have htype : page.references.attributeText
      (fieldTypeOfVal page (parseValue page (page.get item field))) ≠ "json".toList := by
    rcases @fieldTypeOfVal_parseValue J page (page.get item field) with h | h
    · rw [h, attributeText_eq_self (by decide) (by decide) (by decide)]
      decide
    · rw [h, attributeText_eq_self (by decide) (by decide) (by decide)]
      decide
  have hattr : (table.tag page item field).attr dataType = some (page.references.attributeText
      (fieldTypeOfVal page (parseValue page (page.get item field)))) := rfl
  rw [readCell, hattr]
  simp only [Option.some.injEq, if_neg htype]
  rfl

/-- The attributes after the cells of the fields. -/
def collected (page : Page J) (item : Item J) (fields : List Text) : Attributes J :=
  fields.foldl
    (fun attributes field =>
      attributes.assign (page.references.attributeText field) (.text (taken page item field)))
    fun _ => none

theorem serializeRow_tags (fields : List Text) :
    serializeRow page (fields.map (table.tag page item)) =
      some (collected page item fields) := by
  have hfold : ∀ attributes : Attributes J,
      (fields.map (table.tag page item)).foldlM
        (fun attributes cell => (readCell page cell).map fun r => attributes.assign r.1 r.2)
        attributes =
      some (fields.foldl (fun attributes field =>
        attributes.assign (page.references.attributeText field) (.text (taken page item field)))
        attributes) := by
    induction fields with
    | nil => exact fun attributes => rfl
    | cons field fields ih =>
      intro attributes
      rw [List.map_cons, List.foldlM_cons, readCell_tag, Option.map_some, Option.bind_eq_bind,
        Option.bind_some, ih]
      rfl
  exact hfold _

theorem Attributes.assign_self (attributes : Attributes J) {key : Text}
    (h : key ≠ proto) (value : Read J) :
    attributes.assign key value key = some value := by
  rw [Attributes.assign, if_neg h, if_pos rfl]

theorem Attributes.assign_of_ne (attributes : Attributes J) {k key : Text} (h : k ≠ key)
    (value : Read J) : attributes.assign key value k = attributes k := by
  unfold Attributes.assign
  split
  · rfl
  · exact if_neg h

theorem Attributes.assign_proto (attributes : Attributes J) (key : Text) (value : Read J) :
    attributes.assign key value proto = attributes proto := by
  by_cases h : key = proto
  · rw [Attributes.assign, if_pos h]
  · exact attributes.assign_of_ne (Ne.symm h) value

/-- The attributes with one more field. -/
theorem collected_append_singleton (fields : List Text) (field : Text) :
    collected page item (fields ++ [field]) =
      (collected page item fields).assign (page.references.attributeText field)
        (.text (taken page item field)) := by
  rw [collected, List.foldl_append]
  rfl

theorem collected_proto (fields : List Text) :
    collected page item fields proto = none := by
  induction fields using List.reverseRecOn with
  | nil => rfl
  | append_singleton fields field ih => rw [collected_append_singleton, Attributes.assign_proto, ih]

/-- An attribute is that of a field read under its name. -/
theorem collected_eq_some {fields : List Text} {key : Text} {read : Read J}
    (h : collected page item fields key = some read) :
    ∃ field ∈ fields, page.references.attributeText field = key ∧
      read = .text (taken page item field) := by
  induction fields using List.reverseRecOn with
  | nil => cases h
  | append_singleton fields field ih =>
    rw [collected_append_singleton] at h
    by_cases hkey : key = page.references.attributeText field
    · subst hkey
      have hproto : page.references.attributeText field ≠ proto := by
        intro heq
        rw [heq, Attributes.assign_proto, collected_proto] at h
        cases h
      rw [Attributes.assign_self _ hproto] at h
      exact ⟨field, by simp, rfl, (Option.some.inj h).symm⟩
    · rw [Attributes.assign_of_ne _ hkey] at h
      obtain ⟨other, hother, hrest⟩ := ih h
      exact ⟨other, List.mem_append_left _ hother, hrest⟩

/-- A field read under a name leaves an attribute there. -/
theorem exists_collected {fields : List Text} {field : Text} (hfield : field ∈ fields)
    (hproto : page.references.attributeText field ≠ proto) :
    ∃ read, collected page item fields (page.references.attributeText field) = some read := by
  induction fields using List.reverseRecOn with
  | nil => cases hfield
  | append_singleton fields last ih =>
    rw [collected_append_singleton]
    by_cases hlast :
        page.references.attributeText field = page.references.attributeText last
    · rw [hlast, Attributes.assign_self _ (hlast ▸ hproto)]
      exact ⟨_, rfl⟩
    · rw [Attributes.assign_of_ne _ hlast]
      rcases List.mem_append.mp hfield with hmem | hmem
      · exact ih hmem
      · obtain rfl := List.mem_singleton.mp hmem
        exact absurd rfl hlast

/-- Where every field has an attribute, every field is read under its own name: one that is not
would have its attribute from a field with a heavier name, which is not either. -/
theorem attributeText_eq_of_collected {fields : List Text}
    (h : ∀ field ∈ fields, ∃ read, collected page item fields field = some read) :
    ∀ field ∈ fields, page.references.attributeText field = field := by
  have hbound : ∃ bound, ∀ field ∈ fields, weight field ≤ bound := by
    refine ⟨(fields.map weight).sum, fun field hfield => ?_⟩
    exact List.single_le_sum (fun _ _ => Nat.zero_le _) _ (List.mem_map_of_mem hfield)
  obtain ⟨bound, hbound⟩ := hbound
  have hall : ∀ n, ∀ field ∈ fields, bound - weight field = n →
      page.references.attributeText field = field := by
    intro n
    induction n using Nat.strongRecOn with
    | ind n ih =>
      rintro field hfield rfl
      obtain ⟨read, hread⟩ := h field hfield
      obtain ⟨other, hother, hname, -⟩ := collected_eq_some hread
      by_cases hself : page.references.attributeText other = other
      · rw [← hname, hself]
        exact hself
      · have hless := weight_attributeText_lt hself
        rw [hname] at hless
        have hle := hbound other hother
        exact absurd (ih (bound - weight other) (by omega) other hother rfl) hself
  exact fun field hfield => hall _ field hfield rfl

/-- A number is read back as its text. -/
theorem attributeText_number (n : Number) :
    page.references.attributeText (escape n.text) = n.text := by
  have hplain : ∀ {c : Char}, isNumberChar c = false → c ∉ n.text := by
    intro c hc hmem
    have hnumber := List.all_eq_true.mp n.plain c hmem
    rw [hc] at hnumber
    cases hnumber
  rw [escape_eq, attributeText_escaped_eq_iff]
  exact ⟨hplain (by decide), hplain (by decide)⟩

/-- **A value comes back exactly if it is plain.** -/
theorem agrees_taken_iff {field : Text} (hproto : field ≠ proto) :
    Agrees (item field) (.text (taken page item field)) ↔ Plain page item field := by
  have hempty : page.references.attributeText (escape []) = [] := rfl
  unfold taken Plain Page.get
  rcases item field with _ | s | n | _ | o
  · cases hinherited : page.inherited field with
    | none => exact iff_of_true (congrArg Read.text hempty) rfl
    | some val =>
      -- what is inherited is shown, and is not empty
      obtain ⟨source, rfl, hne, hplain⟩ := page.inherited_source field hproto val hinherited
      have hread : page.references.attributeText (escape source) = source := by
        rw [escape_eq, attributeText_escaped_eq_iff]
        exact hplain
      refine iff_of_false (fun h => hne ?_) (by simp)
      exact hread.symm.trans (Read.text.inj h)
  · have hparse : parseValue page (some (.str s)) = .str s := rfl
    rw [Option.some_or, Agrees, Read.text.injEq, hparse, Value.text, escape_eq]
    exact attributeText_escaped_eq_iff
  · exact iff_of_true (congrArg Read.text (attributeText_number n)) trivial
  · exact iff_of_true (congrArg Read.text hempty) trivial
  · exact iff_of_false (fun h => by cases h) id

/-- A row is taken back as the attributes collected of it. -/
theorem rowSurvives_iff_collected (h : table.Written page) {i : ℕ}
    (hi : table.items[i]? = some item) :
    table.RowSurvives page i item ↔ ∀ field ∈ table.fields, ∃ read,
      collected page item table.fields field = some read ∧ Agrees (item field) read := by
  have hrow : (table.items.map fun item => table.fields.map (table.tag page item))[i]? =
      some (table.fields.map (table.tag page item)) := by
    rw [List.getElem?_map, hi, Option.map_some]
  constructor
  · rintro ⟨rows, row, attributes, hrows, hat, hserialize, hall⟩
    obtain rfl := Option.some.inj ((rows_bodyTemplate h).symm.trans hrows)
    obtain rfl := Option.some.inj (hrow.symm.trans hat)
    obtain rfl := Option.some.inj ((serializeRow_tags table.fields).symm.trans hserialize)
    exact hall
  · intro hall
    exact ⟨_, _, _, rows_bodyTemplate h, hrow, serializeRow_tags table.fields, hall⟩

/-- **The values of a row come back exactly when the fields are read under their own names and
the values are plain**: texts without carriage returns and NULs, numbers, nulls, and nothing where
nothing is inherited. -/
theorem rowSurvives_iff (h : table.Written page) {i : ℕ} (hi : table.items[i]? = some item) :
    table.RowSurvives page i item ↔ table.Displayable page item := by
  rw [rowSurvives_iff_collected h hi]
  constructor
  · intro hall
    have hself := attributeText_eq_of_collected fun field hfield => by
      obtain ⟨read, hread, -⟩ := hall field hfield
      exact ⟨read, hread⟩
    have hproto : ∀ field ∈ table.fields, field ≠ proto := by
      rintro field hfield rfl
      obtain ⟨read, hread, -⟩ := hall _ hfield
      rw [collected_proto] at hread
      cases hread
    refine ⟨fun field hfield => ⟨hself field hfield, hproto field hfield⟩, fun field hfield => ?_⟩
    · obtain ⟨read, hread, hagrees⟩ := hall field hfield
      obtain ⟨other, hother, hname, rfl⟩ := collected_eq_some hread
      obtain rfl : other = field := (hself other hother).symm.trans hname
      exact (agrees_taken_iff (hproto other hother)).mp hagrees
  · rintro ⟨hnames, hvalues⟩ field hfield
    obtain ⟨hself, hproto⟩ := hnames field hfield
    obtain ⟨read, hread⟩ := @exists_collected J page item _ field hfield (by rwa [hself])
    rw [hself] at hread
    obtain ⟨other, hother, hname, rfl⟩ := collected_eq_some hread
    obtain rfl : other = field := (hnames other hother).1.symm.trans hname
    exact ⟨_, hread, (agrees_taken_iff hproto).mpr (hvalues other hother)⟩

/-- `val` of an item that was taken back. -/
def Read.val (page : Page J) : Read J → Option Text
  | undefined => none
  | text s => some s
  | object o => some (page.stringify o)

/-- Of a value that came back, the item has the text that was written. -/
theorem val_of_agrees {field : Text} {read : Read J} (h : Agrees (item field) read) :
    read.val page = some ((parseValue page (item field)).text page) := by
  revert h
  rcases item field with _ | s | n | _ | o <;> rintro rfl <;> rfl

/-! ### An object -/

/-- The references that the page writes itself. -/
def written : List (Text × Text) :=
  [("amp;".toList, ['&']), ("lt;".toList, ['<']), ("gt;".toList, ['>']), ("quot;".toList, ['"'])]

theorem mem_of_lookup_written {name text : Text} (h : written.lookup name = some text) :
    (name, text) ∈ written := by
  obtain ⟨front, back, heq, -⟩ := List.lookup_eq_some_iff.mp h
  rw [heq]
  simp

def writtenReferences : References where
  find name := written.lookup name
  amp := rfl
  lt := rfl
  gt := rfl
  quot := rfl
  ends name more hmore := by
    have hmem : ';' ∈ (name ++ ';' :: more).dropLast := by
      rw [List.dropLast_append_of_ne_nil (by simp), List.dropLast_cons_of_ne_nil hmore]
      simp
    refine List.lookup_eq_none_iff.mpr fun entry hentry => ?_
    have hall : written.all (fun entry => ';' ∉ entry.1.dropLast) = true := by decide
    have hlast := of_decide_eq_true (List.all_eq_true.mp hall entry hentry)
    simpa using fun heq : name ++ ';' :: more = entry.1 => hlast (heq ▸ hmem)
  short name text h := by
    have hall : written.all (fun entry => entry.2.length ≤ entry.1.length) = true := by decide
    exact of_decide_eq_true (List.all_eq_true.mp hall _ (mem_of_lookup_written h))
  printable name text h := by
    have hall : written.all (fun entry => '\r' ∉ entry.2 ∧ '\x00' ∉ entry.2) = true := by decide
    exact of_decide_eq_true (List.all_eq_true.mp hall _ (mem_of_lookup_written h))

/-- The functions that every object has, but for those with underscores. -/
def functions : List (Text × Text) :=
  [("constructor", "Object"), ("hasOwnProperty", "hasOwnProperty"),
    ("isPrototypeOf", "isPrototypeOf"), ("propertyIsEnumerable", "propertyIsEnumerable"),
    ("toLocaleString", "toLocaleString"), ("toString", "toString"), ("valueOf", "valueOf")].map
    fun p => (p.1.toList, ("function " ++ p.2 ++ "() \x7b [native code] \x7d").toList)

/-- A page where the objects are given by their JSON texts. -/
def jsonPage : Page Text where
  references := writtenReferences
  stringify o := o
  parse s := some s
  toText _ := "[object Object]".toList
  inherited field := (functions.lookup field).map Value.str
  inherited_source field _ val hval := by
    obtain ⟨source, hsource, rfl⟩ := Option.map_eq_some_iff.mp hval
    obtain ⟨front, back, heq, -⟩ := List.lookup_eq_some_iff.mp hsource
    have hall : functions.all (fun p => p.2 ≠ [] ∧ '\r' ∉ p.2 ∧ '\x00' ∉ p.2) = true := by decide
    have hmem : (field, source) ∈ functions := by simp [heq]
    exact ⟨source, rfl, of_decide_eq_true (List.all_eq_true.mp hall _ hmem)⟩
  isNumeric
    | .num _ => true
    | _ => false
  htmlPrefilter html := html
  htmlPrefilter_eq _ _ := rfl
  htmlPrefilter_append _ _ := rfl
  htmlPrefilter_last a := ⟨a, rfl⟩

/-- One item with an object in its field `doc`, and the key 7. -/
def docItem : Item Text := fun field =>
  if field = "id".toList then some (.num ⟨"7".toList, by decide⟩)
  else if field = "doc".toList then some (.obj "\x7b\"a\":1\x7d".toList)
  else none

def docTable : Table Text where
  fields := ["id".toList, "doc".toList]
  primaryKey := some "id".toList
  expandedFields := []
  items := [docItem]

theorem written_docTable : docTable.Written jsonPage :=
  written_of_enclosed (by decide) (by decide)

theorem rowSurvives_iff_docTable :
    docTable.Written jsonPage ∧ docTable.items[0]? = some docItem ∧
      (docTable.RowSurvives jsonPage 0 docItem ↔ docTable.Displayable jsonPage docItem) :=
  ⟨written_docTable, rfl, rowSurvives_iff written_docTable rfl⟩

/-- The object comes back as its JSON text. -/
theorem not_rowSurvives_docTable :
    ¬∀ (page : Page Text) (table : Table Text) (i : ℕ) (item : Item Text),
      table.items[i]? = some item → table.RowSurvives page i item := by
  intro h
  have hsurvives := h jsonPage docTable 0 docItem rfl
  obtain ⟨read, hread, hagrees⟩ :=
    (rowSurvives_iff_collected written_docTable rfl).mp hsurvives "doc".toList (by decide)
  obtain ⟨other, hother, -, rfl⟩ := collected_eq_some hread
  cases hagrees

end BkPlatform.Labrador.TableView
