import BkPlatform.Labrador.TableForm

/-!
# What the statement of the form says

The elements of the statement are read one after the other, and each begins where the one in
front of it has been read as it was meant.  So the first row that is not read as the form says it
spoils the statement, whatever comes later: what stands in a column in the place of its default
text is not the clause for it, however the text goes on.

## Main definitions

* `PlainItem` — a row that is read as the form says it.

## Main results

* `options_iff`, `readColumn_iff` — what a column of the form is read as.
* `says_iff` — **exactly when the statement means what the form says.**
-/

namespace BkPlatform.Labrador

open Delimited

variable {accepts : List Char → Option (List Char) → List Char → Bool}

/-! ### Space -/

theorem rdropWhile_append_space {ws : List Char} (hws : ws.all isSpace = true) (l : List Char) :
    (l ++ ws).rdropWhile isSpace = l.rdropWhile isSpace := by
  induction ws using List.reverseRecOn with
  | nil => rw [List.append_nil]
  | append_singleton ws c ih =>
    rw [List.all_append, Bool.and_eq_true] at hws
    rw [← List.append_assoc, List.rdropWhile_concat_pos _ _ _ (by simpa using hws.2), ih hws.1]

/-- Space at the end is dropped up to a character that is not space. -/
theorem prefix_rdropWhile {c : Char} (hc : isSpace c = false) (x y : List Char) :
    x ++ [c] <+: (x ++ c :: y).rdropWhile isSpace := by
  induction y using List.reverseRecOn with
  | nil =>
    have hkeep := List.rdropWhile_concat_neg isSpace x c (by simp [hc])
    exact ⟨[], by rw [hkeep, List.append_nil]⟩
  | append_singleton y d ih =>
    have hlast : x ++ c :: (y ++ [d]) = (x ++ c :: y) ++ [d] := by simp
    rw [hlast]
    by_cases hd : isSpace d = true
    · rwa [List.rdropWhile_concat_pos _ _ _ hd]
    · rw [List.rdropWhile_concat_neg _ _ _ hd]
      exact ⟨y ++ [d], by simp⟩

theorem skip_cons {c : Char} (hc : isSpace c = false) (text : List Char) :
    skip (c :: text) = c :: text :=
  List.dropWhile_cons_of_neg (by simp [hc])

theorem skip_append {ws : List Char} (hws : ws.all isSpace = true) (text : List Char) :
    skip (ws ++ text) = skip text :=
  List.dropWhile_append_of_pos (List.all_eq_true.mp hws)

theorem passes_space {ws : List Char} (hws : ws.all isSpace = true) :
    passes endsOptions (.plain 0) ws = true := by
  induction ws with
  | nil => rfl
  | cons c ws ih =>
    rw [List.all_cons, Bool.and_eq_true] at hws
    have hc : Lex.next (.plain 0) c = .plain 0 ∧ endsOptions c = false := by
      have hspace := hws.1
      simp only [isSpace, Bool.or_eq_true, beq_iff_eq] at hspace
      rcases hspace with ((rfl | rfl) | rfl) | rfl <;> exact ⟨rfl, rfl⟩
    rw [passes, hc.1, hc.2, ih hws.2]
    rfl

/-! ### The options of a column -/

theorem passes_options (item : FieldItem) :
    passes endsOptions (.plain 0) (item.options []) = true := by
  have hall : ∀ (a : FieldAttribute) (n : FieldNull) (e : FieldExtra),
      passes endsOptions (.plain 0) (" ".toList ++ a.value.toList ++ " ".toList ++ [] ++
        " ".toList ++ n.value.toList ++ " ".toList ++ e.value.toList) = true := by
    intro a n e
    cases a <;> cases n <;> cases e <;> rfl
  exact hall _ _ _

/-- Without a default text, the options are read as the form says them, up to where they end. -/
theorem options_iff_of_empty {item : FieldItem} (hdefault : item.default = "")
    {ws rest r : List Char} {stop : Char} (hws : ws.all isSpace = true)
    (hstop : endsOptions stop = true) :
    (∃ o, readUntil endsOptions (.plain 0)
        (item.options item.default.toList ++ (ws ++ stop :: rest)) = some (o, r) ∧
        o.rdropWhile isSpace = item.definition.options) ↔ r = stop :: rest := by
  have hplain : passes endsOptions (.plain 0) (item.options [] ++ ws) = true := by
    rw [passes_append (passes_options item), passes_space hws]
  have hclause : defaultClause item.default = [] := if_pos hdefault
  have hempty : item.default.toList = [] := by rw [hdefault]; rfl
  rw [FieldItem.definition, hclause, hempty]
  constructor
  · rintro ⟨o, ho, _⟩
    have hself := (readUntil_eq_some_iff hstop).mpr ⟨hplain, (rfl : stop :: rest = stop :: rest)⟩
    rw [List.append_assoc, ho] at hself
    exact (Prod.mk.inj (Option.some.inj hself)).2
  · intro hr
    refine ⟨item.options [] ++ ws, ?_, rdropWhile_append_space hws _⟩
    rw [← List.append_assoc, hr, readUntil_eq_some_iff hstop]
    exact ⟨hplain, rfl⟩

/-- With one, they are never read so: its clause would have to stand at the beginning of the
text. -/
theorem not_options_of_default {item : FieldItem} (hdefault : item.default ≠ "")
    {behind r : List Char} :
    ¬∃ o, readUntil endsOptions (.plain 0) (item.options item.default.toList ++ behind) =
        some (o, r) ∧ o.rdropWhile isSpace = item.definition.options := by
  rintro ⟨o, ho, hoptions⟩
  let front := " ".toList ++ item.attributes.value.toList ++ " ".toList
  let quoted := "DEFAULT '".toList ++ SqlLiteral.doubled isDoubled item.default.toList
  obtain ⟨d, n, hnull⟩ : ∃ d n, item.null.value.toList = d :: n ∧ d ≠ '\'' := by
    cases item.null with
    | notNull => exact ⟨_, _, rfl, by decide⟩
    | null => exact ⟨_, _, rfl, by decide⟩
  have hclause : front ++ quoted ++ ['\''] <+: o.rdropWhile isSpace := by
    rw [hoptions]
    have hmeant : item.options (defaultClause item.default) = front ++ quoted ++ '\'' ::
        (" ".toList ++ item.null.value.toList ++ " ".toList ++ item.extra.value.toList) := by
      simp [FieldItem.options, defaultClause, hdefault, front, quoted]
    rw [FieldItem.definition, hmeant]
    exact prefix_rdropWhile rfl _ _
  have htext := append_of_readUntil ho
  obtain ⟨u, hu⟩ := hclause
  obtain ⟨v, hv⟩ := o.rdropWhile_prefix isSpace
  have heq : item.default.toList ++ ' ' :: d ::
      (n ++ (" ".toList ++ item.extra.value.toList ++ behind)) =
      ("DEFAULT".toList ++ ' ' :: List.replicate (0 + 1) '\'') ++
        (SqlLiteral.doubled isDoubled item.default.toList ++ ('\'' :: (u ++ v ++ r))) := by
    have hall : front ++ (item.default.toList ++ ' ' :: d ::
        (n ++ (" ".toList ++ item.extra.value.toList ++ behind))) =
        front ++ (quoted ++ '\'' :: (u ++ v ++ r)) := by
      calc _ = item.options item.default.toList ++ behind := by
            simp [FieldItem.options, hnull.1, front]
        _ = o ++ r := htext
        _ = (front ++ quoted ++ ['\''] ++ u) ++ v ++ r := by rw [hu, hv]
        _ = _ := by simp
    exact List.append_cancel_left hall
  exact SqlLiteral.ne_keyword_doubled (by decide) (by decide) (by decide) (by decide)
    (by decide) hnull.2 _ _ _ _ heq

/-- **What the options of a column are read as**: what the form says, if no default text has been
entered, and never otherwise. -/
theorem options_iff (item : FieldItem) {ws rest r : List Char} {stop : Char}
    (hws : ws.all isSpace = true) (hstop : endsOptions stop = true) :
    (∃ o, readUntil endsOptions (.plain 0)
        (item.options item.default.toList ++ (ws ++ stop :: rest)) = some (o, r) ∧
        o.rdropWhile isSpace = item.definition.options) ↔
      item.default = "" ∧ r = stop :: rest := by
  by_cases hdefault : item.default = ""
  · rw [options_iff_of_empty hdefault hws hstop, and_iff_right hdefault]
  · exact iff_of_false (not_options_of_default hdefault) fun h => hdefault h.1

/-! ### Columns -/

/-- A row that is read as the form says it: no backtick in its name, a length that opens and
closes its parentheses and quotes, no default text, and a type, length and options the server
takes. -/
structure PlainItem (accepts : List Char → Option (List Char) → List Char → Bool)
    (item : FieldItem) : Prop where
  name : '\x60' ∉ item.field.toList
  args : passes (fun c => c == ')') (.plain 0) item.value.toList = true
  default : item.default = ""
  accepted : accepts item.type.value.toList (some item.value.toList)
    ((item.options []).rdropWhile isSpace) = true

/-- **What a column is read as**: its name, type and length are those of the row if there is no
backtick in the name and the length is closed. -/
theorem readColumn_iff (item : FieldItem) {options text r : List Char} :
    readColumn accepts (item.field.toList ++ '\x60' :: ' ' :: (item.type.value.toList ++
        '(' :: (item.value.toList ++ ')' :: text))) =
      some (⟨item.field.toList, item.type.value.toList, some item.value.toList, options⟩, r) ↔
    '\x60' ∉ item.field.toList ∧ passes (fun c => c == ')') (.plain 0) item.value.toList = true ∧
      accepts item.type.value.toList (some item.value.toList) options = true ∧
      ∃ o, readUntil endsOptions (.plain 0) text = some (o, r) ∧
        o.rdropWhile isSpace = options := by
  have htype : ∀ (t : FieldType) (cs : List Char),
      skip (' ' :: (t.value.toList ++ '(' :: cs)) = t.value.toList ++ '(' :: cs ∧
      (t.value.toList ++ '(' :: cs).takeWhile Char.isAlpha = t.value.toList ∧
      (t.value.toList ++ '(' :: cs).dropWhile Char.isAlpha = '(' :: cs := by
    intro t cs
    cases t <;> exact ⟨rfl, rfl, rfl⟩
  obtain ⟨hskip, htake, hdrop⟩ := htype item.type (item.value.toList ++ ')' :: text)
  have hargs : readArgs ('(' :: (item.value.toList ++ ')' :: text)) =
      (readUntil (fun c => c == ')') (.plain 0) (item.value.toList ++ ')' :: text)).map
        fun r => (some r.1, r.2.tail) := rfl
  constructor
  · intro h
    simp only [readColumn, Option.bind_eq_bind, Option.bind_eq_some_iff] at h
    obtain ⟨⟨name, behind⟩, hname, ⟨args, behindArgs⟩, hargs', ⟨o, behindOptions⟩, ho, hif⟩ := h
    split at hif
    · next haccepts =>
      simp only [Option.some.injEq, Prod.mk.injEq, ColumnDef.mk.injEq] at hif
      obtain ⟨⟨rfl, -, rfl, rfl⟩, rfl⟩ := hif
      obtain ⟨hnot, rfl⟩ := (readName_eq_some_iff (by decide)).mp hname
      rw [hskip] at hargs' haccepts
      rw [hdrop, hargs, Option.map_eq_some_iff] at hargs'
      obtain ⟨⟨length, behindLength⟩, hread, heq⟩ := hargs'
      simp only [Prod.mk.injEq, Option.some.injEq] at heq
      obtain ⟨rfl, rfl⟩ := heq
      obtain ⟨hpasses, rfl⟩ := (readUntil_eq_some_iff rfl).mp hread
      rw [htake] at haccepts
      exact ⟨hnot, hpasses, haccepts, o, ho, rfl⟩
    · cases hif
  · rintro ⟨hnot, hpasses, haccepts, o, ho, hoptions⟩
    have hname := (@readName_eq_some_iff '\x60' ' ' (by decide) _ _ _).mpr ⟨hnot,
      (rfl : ' ' :: (item.type.value.toList ++ '(' :: (item.value.toList ++ ')' :: text)) = _)⟩
    have hread := (@readUntil_eq_some_iff (fun c => c == ')') _ _ _ _ ')' rfl).mpr
      ⟨hpasses, (rfl : ')' :: text = _)⟩
    simp only [readColumn, hname, Option.bind_eq_bind, Option.bind_some, hskip, hdrop, hargs, hread,
      Option.map_some, List.tail_cons, ho, htake, hoptions, haccepts, if_true]

/-- **A row is read as the form says it exactly if it is plain.** -/
theorem readElement_columnText_iff (item : FieldItem) {ws rest r : List Char} {stop : Char}
    (hws : ws.all isSpace = true) (hstop : endsOptions stop = true) :
    readElement accepts (item.columnText ++ (ws ++ stop :: rest)) =
      some (.column item.definition, r) ↔ PlainItem accepts item ∧ r = stop :: rest := by
  have hcolumn : readElement accepts (item.columnText ++ (ws ++ stop :: rest)) =
      (readColumn accepts (item.field.toList ++ '\x60' :: ' ' :: (item.type.value.toList ++
        '(' :: (item.value.toList ++ ')' ::
          (item.options item.default.toList ++ (ws ++ stop :: rest)))))).map
        fun r => (.column r.1, r.2) := by
    have htext : item.columnText ++ (ws ++ stop :: rest) =
        '\x60' :: (item.field.toList ++ '\x60' :: ' ' :: (item.type.value.toList ++
          '(' :: (item.value.toList ++ ')' ::
            (item.options item.default.toList ++ (ws ++ stop :: rest))))) := by
      simp [FieldItem.columnText]
    rw [htext]
    rfl
  have hsome : readElement accepts (item.columnText ++ (ws ++ stop :: rest)) =
      some (.column item.definition, r) ↔
      readColumn accepts (item.field.toList ++ '\x60' :: ' ' :: (item.type.value.toList ++
        '(' :: (item.value.toList ++ ')' ::
          (item.options item.default.toList ++ (ws ++ stop :: rest))))) =
        some (⟨item.field.toList, item.type.value.toList, some item.value.toList,
          item.definition.options⟩, r) := by
    rw [hcolumn, Option.map_eq_some_iff]
    constructor
    · rintro ⟨⟨column, rest'⟩, hread, heq⟩
      simp only [Prod.mk.injEq, Element.column.injEq] at heq
      obtain ⟨rfl, rfl⟩ := heq
      exact hread
    · intro hread
      exact ⟨_, hread, rfl⟩
  have hempty : item.default = "" → item.definition.options =
      (item.options []).rdropWhile isSpace := by
    intro h
    rw [FieldItem.definition, defaultClause, if_pos h]
  rw [hsome, readColumn_iff, options_iff item hws hstop]
  constructor
  · rintro ⟨hname, hargs, haccepts, hdefault, hr⟩
    rw [hempty hdefault] at haccepts
    exact ⟨⟨hname, hargs, hdefault, haccepts⟩, hr⟩
  · rintro ⟨⟨hname, hargs, hdefault, haccepts⟩, hr⟩
    rw [← hempty hdefault] at haccepts
    exact ⟨hname, hargs, haccepts, hdefault, hr⟩

/-! ### One element after the other -/

/-- The rest of a statement behind an element: each further one behind a comma. -/
def joined : List (List Char) → List Char
  | [] => closing
  | text :: texts => ',' :: (text ++ joined texts)

/-- The statement without its last comma. -/
theorem dropLast_withCommas (text : List Char) (texts : List (List Char)) :
    (withCommas (text :: texts)).dropLast ++ closing = text ++ joined texts := by
  induction texts generalizing text with
  | nil => simp [withCommas, joined]
  | cons next texts ih =>
    have hne : withCommas (next :: texts) ≠ [] := by simp [withCommas]
    have hstep : withCommas (text :: next :: texts) =
        (text ++ [',']) ++ withCommas (next :: texts) := by simp [withCommas]
    rw [hstep, List.dropLast_append_of_ne_nil hne, List.append_assoc, ih]
    simp [joined]

/-- What follows an element is space up to a comma or the closing parenthesis. -/
theorem joined_eq (texts : List (List Char)) : ∃ ws stop rest, joined texts = ws ++ stop :: rest ∧
    ws.all isSpace = true ∧ endsOptions stop = true ∧ skip (joined texts) = stop :: rest := by
  cases texts with
  | nil => exact ⟨"\n      ".toList, ')', _, rfl, by decide, by decide, rfl⟩
  | cons text texts => exact ⟨[], ',', _, rfl, rfl, rfl, rfl⟩

/-- What is read behind an element. -/
def readMore (accepts : List Char → Option (List Char) → List Char → Bool) (n : ℕ)
    (text : List Char) : Option (List Element × List Char) :=
  match skip text with
  | ',' :: text => readElements accepts n text
  | ')' :: text => some ([], text)
  | _ => none

theorem readElements_succ (n : ℕ) (text : List Char) :
    readElements accepts (n + 1) text = (readElement accepts text).bind fun r =>
      (readMore accepts n r.2).map fun more => (r.1 :: more.1, more.2) := by
  rw [readElements]
  cases readElement accepts text with
  | none => rfl
  | some r =>
    obtain ⟨element, behind⟩ := r
    simp only [Option.bind_some, readMore]
    generalize skip behind = rest
    cases rest with
    | nil => rfl
    | cons c rest =>
      by_cases hcomma : c = ','
      · subst hcomma
        rfl
      by_cases hclose : c = ')'
      · subst hclose
        rfl
      simp [hcomma, hclose]

theorem readMore_congr {n : ℕ} {text text' : List Char} (h : skip text = skip text') :
    readMore accepts n text = readMore accepts n text' := by
  rw [readMore, readMore, h]

/-- The text is read as the element, and the reader goes on behind it. -/
def Reads (accepts : List Char → Option (List Char) → List Char → Bool) (text : List Char)
    (e : Element) : Prop :=
  ∀ texts, ∃ r, readElement accepts (text ++ joined texts) = some (e, r) ∧
    skip r = skip (joined texts)

/-- A step over an element that is read. -/
theorem Reads.readMore_cons {text : List Char} {e : Element} (h : Reads accepts text e)
    (n : ℕ) (texts : List (List Char)) :
    readMore accepts (n + 1) (joined (text :: texts)) =
      (readMore accepts n (joined texts)).map fun more => (e :: more.1, more.2) := by
  obtain ⟨r, hr, hskip⟩ := h texts
  have hcomma : readMore accepts (n + 1) (joined (text :: texts)) =
      readElements accepts (n + 1) (text ++ joined texts) := rfl
  rw [hcomma, readElements_succ, hr, Option.bind_some, readMore_congr hskip]

theorem PlainItem.reads {item : FieldItem} (h : PlainItem accepts item) :
    Reads accepts item.columnText (.column item.definition) := by
  intro texts
  obtain ⟨ws, stop, rest, hjoined, hws, hstop, hskip⟩ := joined_eq texts
  have hread := (readElement_columnText_iff item hws hstop).mpr ⟨h, (rfl : stop :: rest = _)⟩
  rw [← hjoined] at hread
  refine ⟨stop :: rest, hread, ?_⟩
  rw [← hskip]
  exact List.dropWhile_idempotent isSpace _

/-- The key a row is to have, as far as it is put into the statement. -/
def FieldItem.key (item : FieldItem) : Option Element :=
  match item.index with
  | some .primary => some (.primaryKey [item.field.toList])
  | some .unique => some (.uniqueKey [item.field.toList])
  | _ => none

theorem afterKeyword_append (keyword : String) (text : List Char) :
    afterKeyword keyword (keyword.toList ++ text) = some text := by
  have hfront : keyword.toList.isPrefixOf (keyword.toList ++ text) = true := by simp
  rw [afterKeyword, if_pos hfront, List.drop_left]

/-- The clause of one name, behind its keyword. -/
theorem readNames_one {name : List Char} (hname : '\x60' ∉ name) (rest : List Char) (n : ℕ) :
    readNames (n + 1) ('\x60' :: (name ++ '\x60' :: ')' :: rest)) = some ([name], rest) := by
  have hread := (@readName_eq_some_iff '\x60' ')' (by decide) _ _ _).mpr
    ⟨hname, (rfl : ')' :: rest = _)⟩
  have hfirst : skip ('\x60' :: (name ++ '\x60' :: ')' :: rest)) =
      '\x60' :: (name ++ '\x60' :: ')' :: rest) := rfl
  have hlast : skip (')' :: rest) = ')' :: rest := rfl
  rw [readNames, hfirst]
  simp only [hread, hlast]

/-- The key clause of a row whose name has no backtick. -/
theorem reads_key {item : FieldItem} (hname : '\x60' ∉ item.field.toList) {text : List Char}
    (htext : item.keyText = some text) :
    ∃ e, item.key = some e ∧ Reads accepts text e := by
  let names := fun rest => '\x60' :: (item.field.toList ++ '\x60' :: ')' :: rest)
  have hprimary : ∀ rest, readKey ("PRIMARY KEY (".toList ++ names rest) =
      some (.primaryKey [item.field.toList], rest) := by
    intro rest
    rw [readKey, keyClauses, List.findSome?_cons, afterKeyword_append, Option.bind_some,
      readNames_one hname]
    rfl
  have hunique : ∀ rest, readKey ("UNIQUE KEY (".toList ++ names rest) =
      some (.uniqueKey [item.field.toList], rest) := by
    intro rest
    have hother : afterKeyword "PRIMARY KEY (" ("UNIQUE KEY (".toList ++ names rest) = none := rfl
    rw [readKey, keyClauses, List.findSome?_cons, hother, Option.bind_none, List.findSome?_cons,
      afterKeyword_append, Option.bind_some, readNames_one hname]
    rfl
  unfold FieldItem.keyText at htext
  unfold FieldItem.key
  cases hindex : item.index with
  | none =>
    rw [hindex] at htext
    cases htext
  | some choice =>
    rw [hindex] at htext
    cases choice with
    | primary =>
      obtain rfl := Option.some.inj htext
      refine ⟨_, rfl, fun texts => ⟨joined texts, ?_, rfl⟩⟩
      have hclause : "PRIMARY KEY (".toList ++ '\x60' :: (item.field.toList ++ "`)".toList) ++
          joined texts = "PRIMARY KEY (".toList ++ names (joined texts) := by simp [names]
      rw [hclause]
      exact hprimary (joined texts)
    | index => cases htext
    | unique =>
      obtain rfl := Option.some.inj htext
      refine ⟨_, rfl, fun texts => ⟨joined texts, ?_, rfl⟩⟩
      have hclause : "UNIQUE KEY (".toList ++ '\x60' :: (item.field.toList ++ "`)".toList) ++
          joined texts = "UNIQUE KEY (".toList ++ names (joined texts) := by simp [names]
      rw [hclause]
      exact hunique (joined texts)

/-- What the elements of a row are read as. -/
def FieldItem.elements (item : FieldItem) : List Element :=
  .column item.definition :: item.key.toList

theorem key_eq_none {item : FieldItem} (h : item.keyText = none) : item.key = none := by
  unfold FieldItem.keyText at h
  unfold FieldItem.key
  cases hindex : item.index with
  | none => rfl
  | some choice =>
    rw [hindex] at h
    cases choice with
    | primary => cases h
    | index => rfl
    | unique => cases h

/-- Reading goes on behind the key clause of a row. -/
theorem readMore_keyText {item : FieldItem} (hname : '\x60' ∉ item.field.toList) (n : ℕ)
    (texts : List (List Char)) :
    readMore accepts (n + item.keyText.toList.length) (joined (item.keyText.toList ++ texts)) =
      (readMore accepts n (joined texts)).map fun more => (item.key.toList ++ more.1, more.2) := by
  cases htext : item.keyText with
  | none =>
    rw [key_eq_none htext]
    simp
  | some text =>
    obtain ⟨e, he, hreads⟩ := @reads_key accepts item hname text htext
    rw [he]
    exact hreads.readMore_cons n texts

/-- **Plain rows are read as the form says them.** -/
theorem readMore_plain {items : List FieldItem} (h : ∀ item ∈ items, PlainItem accepts item)
    {n : ℕ} (hn : 2 * items.length ≤ n) :
    readMore accepts n (joined (itemTexts items)) =
      some (items.flatMap FieldItem.elements,
        " ENGINE=InnoDB AUTO_INCREMENT=0 DEFAULT CHARSET=utf8;".toList) := by
  induction items generalizing n with
  | nil => rfl
  | cons item items ih =>
    rw [List.forall_mem_cons] at h
    have hlength : item.keyText.toList.length ≤ 1 := by cases item.keyText <;> simp
    rw [List.length_cons] at hn
    obtain ⟨m, rfl⟩ : ∃ m, n = (m + item.keyText.toList.length) + 1 :=
      ⟨n - 1 - item.keyText.toList.length, by omega⟩
    have htexts : itemTexts (item :: items) =
        item.columnText :: (item.keyText.toList ++ itemTexts items) := rfl
    rw [htexts, h.1.reads.readMore_cons, readMore_keyText h.1.name, ih h.2 (by omega)]
    rfl

/-- Some element has to be read behind a comma. -/
theorem exists_of_readMore_cons {n : ℕ} {text : List Char} {texts : List (List Char)}
    {more : List Element × List Char}
    (h : readMore accepts n (joined (text :: texts)) = some more) :
    ∃ m e t more', n = m + 1 ∧ readElement accepts (text ++ joined texts) = some (e, t) ∧
      readMore accepts m t = some more' ∧ more = (e :: more'.1, more'.2) := by
  have hcomma : readMore accepts n (joined (text :: texts)) =
      readElements accepts n (text ++ joined texts) := rfl
  rw [hcomma] at h
  cases n with
  | zero => cases h
  | succ m =>
    rw [readElements_succ, Option.bind_eq_some_iff] at h
    obtain ⟨⟨e, t⟩, he, hmore⟩ := h
    obtain ⟨more', hmore', rfl⟩ := Option.map_eq_some_iff.mp hmore
    exact ⟨m, e, t, more', rfl, he, hmore', rfl⟩

/-- What begins with a backtick is a column. -/
theorem column_of_readElement {item : FieldItem} {rest t : List Char} {e : Element}
    (h : readElement accepts (item.columnText ++ rest) = some (e, t)) : ∃ c, e = .column c := by
  obtain ⟨⟨c, t'⟩, -, heq⟩ := Option.map_eq_some_iff.mp h
  exact ⟨c, (Prod.mk.inj heq).1.symm⟩

theorem asColumn_of_mem_key {item : FieldItem} {e : Element} (h : item.key = some e) :
    e.asColumn = none := by
  unfold FieldItem.key at h
  split at h
  · obtain rfl := Option.some.inj h
    rfl
  · obtain rfl := Option.some.inj h
    rfl
  · cases h

/-- **Rows that are read as the form says them are plain**: the first one that is not is read as
something else. -/
theorem plain_of_readMore {items : List FieldItem} {n : ℕ} {more : List Element × List Char}
    (h : readMore accepts n (joined (itemTexts items)) = some more)
    (hcolumns : more.1.filterMap Element.asColumn = items.map FieldItem.definition) :
    ∀ item ∈ items, PlainItem accepts item := by
  induction items generalizing n more with
  | nil => exact fun _ hitem => absurd hitem List.not_mem_nil
  | cons item items ih =>
    have htexts : itemTexts (item :: items) =
        item.columnText :: (item.keyText.toList ++ itemTexts items) := rfl
    rw [htexts] at h
    obtain ⟨m, e, t, more', -, he, hmore', rfl⟩ := exists_of_readMore_cons h
    obtain ⟨c, rfl⟩ := column_of_readElement he
    obtain ⟨rfl, hcolumns'⟩ : c = item.definition ∧
        more'.1.filterMap Element.asColumn = items.map FieldItem.definition := by
      simpa [Element.asColumn] using hcolumns
    -- the row is read as the form says it, so the reader stands behind it
    obtain ⟨ws, stop, rest, hjoined, hws, hstop, hskip⟩ :=
      joined_eq (item.keyText.toList ++ itemTexts items)
    rw [hjoined] at he
    obtain ⟨hplain, rfl⟩ := (readElement_columnText_iff item hws hstop).mp he
    have hbehind : readMore accepts m (joined (item.keyText.toList ++ itemTexts items)) =
        some more' := by
      rw [← hmore']
      apply readMore_congr
      rw [← hskip]
      exact (List.dropWhile_idempotent isSpace _).symm
    refine List.forall_mem_cons.mpr ⟨hplain, ?_⟩
    cases htext : item.keyText with
    | none =>
      rw [htext] at hbehind
      exact ih hbehind hcolumns'
    | some text =>
      -- and behind its key clause too
      rw [htext] at hbehind
      obtain ⟨k, hk, hreads⟩ := @reads_key accepts item hplain.name text htext
      obtain ⟨m', -, -, -, rfl, -, -, -⟩ := exists_of_readMore_cons hbehind
      have hstep := hreads.readMore_cons m' (itemTexts items)
      rw [show readMore accepts (m' + 1) (joined (text :: itemTexts items)) = some more' from
        hbehind] at hstep
      obtain ⟨more'', hmore'', rfl⟩ := Option.map_eq_some_iff.mp hstep.symm
      refine ih hmore'' ?_
      simpa [asColumn_of_mem_key hk] using hcolumns'

/-! ### The keys -/

/-- What is left of the elements of all rows, if each is one that the row has chosen or none. -/
theorem filterMap_elements {β : Type*} (f : Element → Option β) (g : FieldItem → Option β)
    (h : ∀ item : FieldItem, item.elements.filterMap f = (g item).toList)
    (items : List FieldItem) :
    (items.flatMap FieldItem.elements).filterMap f = items.filterMap g := by
  induction items with
  | nil => rfl
  | cons item items ih =>
    rw [List.flatMap_cons, List.filterMap_append, h, ih, List.filterMap_cons]
    cases g item <;> rfl

/-- The rows for which something has been chosen, one after the other. -/
theorem filterMap_chosen {β : Type*} (form : TableForm) (choice : FieldIndex)
    (f : List Char → β) :
    (form.items.filterMap fun item =>
        if item.index = some choice then some (f item.field.toList) else none) =
      (form.chosen choice).map f := by
  rw [TableForm.chosen, List.map_map, ← List.filterMap_eq_map, List.filterMap_filter]
  simp only [decide_eq_true_eq]
  rfl

theorem key_cases (item : FieldItem) :
    (item.index = some .primary ∧ item.key = some (.primaryKey [item.field.toList])) ∨
      (item.index = some .unique ∧ item.key = some (.uniqueKey [item.field.toList])) ∨
      (item.index ≠ some .primary ∧ item.index ≠ some .unique ∧ item.key = none) := by
  unfold FieldItem.key
  split
  · next h => exact Or.inl ⟨h, rfl⟩
  · next h => exact Or.inr (Or.inl ⟨h, rfl⟩)
  · next hprimary hunique => exact Or.inr (Or.inr ⟨hprimary, hunique, rfl⟩)

/-- **The keys that are put into the statement**: one primary key for each `PRIMARY` column, one
key for each `UNIQUE` column, and none else. -/
theorem keys_of_elements (form : TableForm) :
    let elements := form.items.flatMap FieldItem.elements
    elements.filterMap Element.asColumn = form.items.map FieldItem.definition ∧
    elements.filterMap Element.asPrimaryKey = (form.chosen .primary).map (fun name => [name]) ∧
    elements.filterMap Element.asUniqueKey = (form.chosen .unique).map (fun name => [name]) ∧
    elements.filterMap Element.asKey = [] := by
  refine ⟨?_, ?_, ?_, ?_⟩
  · rw [filterMap_elements _ (some ∘ FieldItem.definition)]
    · rw [List.filterMap_eq_map]
    · intro item
      rcases key_cases item with ⟨-, hk⟩ | ⟨-, hk⟩ | ⟨-, -, hk⟩ <;>
        simp [FieldItem.elements, hk, Element.asColumn]
  · rw [← filterMap_chosen form .primary, filterMap_elements]
    intro item
    rcases key_cases item with ⟨hi, hk⟩ | ⟨hi, hk⟩ | ⟨hi, -, hk⟩ <;>
      simp [FieldItem.elements, hk, hi, Element.asPrimaryKey, List.filterMap_cons]
  · rw [← filterMap_chosen form .unique, filterMap_elements]
    intro item
    rcases key_cases item with ⟨hi, hk⟩ | ⟨hi, hk⟩ | ⟨-, hi, hk⟩ <;>
      simp [FieldItem.elements, hk, hi, Element.asUniqueKey, List.filterMap_cons]
  · rw [filterMap_elements _ (fun _ => none)]
    · exact List.filterMap_none _
    · intro item
      rcases key_cases item with ⟨-, hk⟩ | ⟨-, hk⟩ | ⟨-, -, hk⟩ <;>
        simp [FieldItem.elements, hk, Element.asKey]

/-! ### The statement -/

theorem readElement_space {ws : List Char} (hws : ws.all isSpace = true) (text : List Char) :
    readElement accepts (ws ++ text) = readElement accepts text := by
  rw [readElement, readElement, skip_append hws]

theorem readElements_space {ws : List Char} (hws : ws.all isSpace = true) (n : ℕ)
    (text : List Char) : readElements accepts n (ws ++ text) = readElements accepts n text := by
  cases n with
  | zero => rfl
  | succ n => rw [readElements_succ, readElements_succ, readElement_space hws]

/-- There are characters enough for the elements. -/
theorem length_joined (items : List FieldItem) :
    2 * items.length < (joined (itemTexts items)).length := by
  induction items with
  | nil => decide
  | cons item items ih =>
    have htexts : itemTexts (item :: items) =
        item.columnText :: (item.keyText.toList ++ itemTexts items) := rfl
    have hmore : (joined (itemTexts items)).length ≤
        (joined (item.keyText.toList ++ itemTexts items)).length := by
      cases item.keyText with
      | none => exact Nat.le_refl _
      | some text =>
        show _ ≤ (',' :: (text ++ joined (itemTexts items))).length
        simp only [List.length_cons, List.length_append]
        omega
    have hcolumn : 1 ≤ item.columnText.length := Nat.succ_le_succ (Nat.zero_le _)
    rw [htexts]
    show _ < (',' :: (item.columnText ++ joined (item.keyText.toList ++ itemTexts items))).length
    simp only [List.length_cons, List.length_append]
    omega

/-- What the statement of a form is read as. -/
theorem readCreateTable_iff {name body : List Char} {elements : List Element} :
    readCreateTable accepts ("CREATE TABLE `".toList ++ (name ++ '\x60' :: ' ' :: '(' ::
        ("\n      ".toList ++ body))) = some ⟨name, elements⟩ ↔
      '\x60' ∉ name ∧ ∃ rest, readElements accepts (body.length + 7) body = some (elements, rest) ∧
        ∃ options, readUntil (fun c => c == ';') (.plain 0) rest = some (options, [';']) := by
  have hparen : afterKeyword "(" (skip (' ' :: '(' :: ("\n      ".toList ++ body))) =
      some ("\n      ".toList ++ body) := rfl
  have hlength : ("\n      ".toList ++ body).length = body.length + 7 := by
    rw [List.length_append, Nat.add_comm]
    rfl
  constructor
  · intro h
    simp only [readCreateTable, afterKeyword_append, Option.bind_eq_bind, Option.bind_some,
      Option.bind_eq_some_iff] at h
    obtain ⟨⟨name', behind⟩, hname, text, htext, ⟨elements', rest⟩, helements, ⟨options, last⟩,
      hoptions, hif⟩ := h
    split at hif
    · next hlast =>
      simp only [Option.some.injEq, CreateTable.mk.injEq] at hif
      obtain ⟨rfl, rfl⟩ := hif
      obtain ⟨hnot, rfl⟩ := (@readName_eq_some_iff '\x60' ' ' (by decide) _ _ _).mp hname
      rw [hparen] at htext
      obtain rfl := Option.some.inj htext
      rw [readElements_space (by decide), hlength] at helements
      obtain rfl : last = [';'] := hlast
      exact ⟨hnot, rest, helements, options, hoptions⟩
    · cases hif
  · rintro ⟨hnot, rest, helements, options, hoptions⟩
    have hname := (@readName_eq_some_iff '\x60' ' ' (by decide) name _ _).mpr
      ⟨hnot, (rfl : ' ' :: '(' :: ("\n      ".toList ++ body) = _)⟩
    have hall : readElements accepts ("\n      ".toList ++ body).length
        ("\n      ".toList ++ body) = some (elements, rest) := by
      rw [readElements_space (by decide), hlength, helements]
    simp only [readCreateTable, afterKeyword_append, Option.bind_eq_bind, Option.bind_some, hname,
      hparen, hall, hoptions, if_true]

/-- The statement of a form, and how it is read: one element after the other, as if behind a
comma. -/
theorem read_form (form : TableForm) (hitems : form.items ≠ []) : ∃ query n,
    createTableQuery ⟨some form.name, form.items.map FieldItem.column⟩ = .ok query ∧
    2 * form.items.length ≤ n ∧
    ∀ elements, readCreateTable accepts query = some ⟨form.name.toList, elements⟩ ↔
      '\x60' ∉ form.name.toList ∧ ∃ rest,
        readMore accepts n (joined (itemTexts form.items)) = some (elements, rest) ∧
        ∃ options, readUntil (fun c => c == ';') (.plain 0) rest = some (options, [';']) := by
  obtain ⟨text, texts, htexts⟩ : ∃ text texts, itemTexts form.items = text :: texts := by
    obtain ⟨item, items, hcons⟩ := List.exists_cons_of_ne_nil hitems
    rw [hcons]
    exact ⟨_, _, rfl⟩
  let body := text ++ joined texts
  have hquery : createTableQuery ⟨some form.name, form.items.map FieldItem.column⟩ =
      .ok ("CREATE TABLE `".toList ++ (form.name.toList ++ '\x60' :: ' ' :: '(' ::
        ("\n      ".toList ++ body))) := by
    rw [createTableQuery_columns, htexts, dropLast_withCommas]
  have hmore : readElements accepts (body.length + 7) body =
      readMore accepts (body.length + 7) (joined (itemTexts form.items)) := by
    rw [htexts]
    rfl
  refine ⟨_, body.length + 7, hquery, ?_, fun elements => ?_⟩
  · have hlength := length_joined form.items
    rw [htexts] at hlength
    have hcomma : (joined (text :: texts)).length = body.length + 1 := rfl
    omega
  · rw [readCreateTable_iff, hmore]

/-- A form of plain rows is read as its elements. -/
theorem read_plain_form {form : TableForm} (hitems : form.items ≠ [])
    (hname : '\x60' ∉ form.name.toList) (hplain : ∀ item ∈ form.items, PlainItem accepts item) :
    ∃ query, createTableQuery ⟨some form.name, form.items.map FieldItem.column⟩ = .ok query ∧
      readCreateTable accepts query =
        some ⟨form.name.toList, form.items.flatMap FieldItem.elements⟩ := by
  obtain ⟨query, n, hquery, hn, hread⟩ := @read_form accepts form hitems
  exact ⟨query, hquery, (hread _).mpr ⟨hname, _, readMore_plain hplain hn, _, rfl⟩⟩

/-- The primary keys are as the form says them if there is one column at most. -/
theorem primaryKeys_iff (names : List (List Char)) :
    names.map (fun name => [name]) = (if names = [] then [] else [names]) ↔ names.length ≤ 1 := by
  match names with
  | [] => simp
  | [name] => simp
  | name :: name' :: names => simp

/-- **Exactly when the statement means what the form says**: if there is no backtick in the name
of the table, every row is read as the form says it, there is no `INDEX` column, and one
`PRIMARY` column at most. -/
theorem says_iff {form : TableForm} {params : TableParams} (h : form.submit = some params) :
    Says accepts form params ↔ '\x60' ∉ form.name.toList ∧
      (∀ item ∈ form.items, PlainItem accepts item) ∧ form.chosen .index = [] ∧
      (form.chosen .primary).length ≤ 1 := by
  obtain ⟨rfl, hitems⟩ := submit_eq_some h
  obtain ⟨hcolumns, hprimary, hunique, hkey⟩ := keys_of_elements form
  constructor
  · rintro ⟨query, t, hok, ht, hname, hcolumns', hprimary', hunique', hkey'⟩
    obtain ⟨query', n, hquery, hn, hread⟩ := @read_form accepts form hitems
    obtain rfl : query' = query := Except.ok.inj (hquery.symm.trans hok)
    obtain ⟨name, elements⟩ := t
    obtain rfl : name = form.name.toList := hname
    obtain ⟨hnot, rest, helements, -⟩ := (hread elements).mp ht
    have hplain := plain_of_readMore helements hcolumns'
    rw [readMore_plain hplain hn] at helements
    obtain ⟨rfl, -⟩ := Prod.mk.inj (Option.some.inj helements)
    rw [hprimary] at hprimary'
    rw [hkey] at hkey'
    exact ⟨hnot, hplain, List.map_eq_nil_iff.mp hkey'.symm, (primaryKeys_iff _).mp hprimary'⟩
  · rintro ⟨hnot, hplain, hindex, hone⟩
    obtain ⟨query, hquery, hread⟩ := read_plain_form hitems hnot hplain
    refine ⟨query, _, hquery, hread, rfl, hcolumns, ?_, hunique, ?_⟩
    · rw [hprimary, (primaryKeys_iff _).mpr hone]
    · rw [hkey, hindex]
      rfl

/-! ### Two forms -/

/-- A server that takes every type with every length and option. -/
def takesAll : List Char → Option (List Char) → List Char → Bool := fun _ _ _ => true

/-- A table with a primary and a unique key. -/
def ordersForm : TableForm where
  name := "orders"
  items := [⟨"id", .int, "11", .unsigned, .notNull, "", .autoIncrement, some .primary⟩,
    ⟨"code", .varchar, "20", .none, .null, "", .none, some .unique⟩]

/-- Its statement means what the form says. -/
theorem says_ordersForm : Says takesAll ordersForm
    ⟨some "orders", ordersForm.items.map FieldItem.column⟩ := by
  have hsubmit : ordersForm.submit =
      some ⟨some "orders", ordersForm.items.map FieldItem.column⟩ := by decide
  refine (says_iff hsubmit).mpr ⟨by decide, ?_, by decide, by decide⟩
  intro item hitem
  simp only [ordersForm, List.mem_cons, List.not_mem_nil, or_false] at hitem
  rcases hitem with rfl | rfl
  · exact ⟨by decide, by decide, rfl, rfl⟩
  · exact ⟨by decide, by decide, rfl, rfl⟩

/-- A table with a primary key of two columns. -/
def itemsForm : TableForm where
  name := "items"
  items := [⟨"order_id", .int, "11", .none, .notNull, "", .none, some .primary⟩,
    ⟨"line", .int, "11", .none, .notNull, "", .none, some .primary⟩]

/-- Its statement has two primary keys. -/
theorem not_says_itemsForm :
    itemsForm.submit = some ⟨some "items", itemsForm.items.map FieldItem.column⟩ ∧
      ¬ Says takesAll itemsForm ⟨some "items", itemsForm.items.map FieldItem.column⟩ := by
  refine ⟨by decide, fun ⟨query, t, hok, ht, _, _, hprimary, _⟩ => ?_⟩
  have hplain : ∀ item ∈ itemsForm.items, PlainItem takesAll item := by
    intro item hitem
    simp only [itemsForm, List.mem_cons, List.not_mem_nil, or_false] at hitem
    rcases hitem with rfl | rfl
    · exact ⟨by decide, by decide, rfl, rfl⟩
    · exact ⟨by decide, by decide, rfl, rfl⟩
  obtain ⟨query', hquery, hread⟩ :=
    @read_plain_form takesAll itemsForm (by decide) (by decide) hplain
  obtain rfl : query' = query := Except.ok.inj (hquery.symm.trans hok)
  obtain rfl := Option.some.inj (hread.symm.trans ht)
  exact absurd hprimary (by decide)

end BkPlatform.Labrador
