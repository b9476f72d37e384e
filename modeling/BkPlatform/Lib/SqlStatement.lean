import BkPlatform.Lib.Pieces
import BkPlatform.Lib.SqlLiteral

/-!
# Statements of SQL that change a row

What a server reads in an `INSERT`, an `UPDATE` or a `DELETE` of one row: the text is cut into
words, literals and marks, a placeholder is given its argument, and what is left is read from
the front to the back.  Servers differ in what a backslash is in a literal, in what they make of
a name, in the words they reserve, and in whether a row without a field can be written.

A text with a comment outside of its literals is not read.

## Main definitions

* `Token`, `tokens` — the pieces of a text.
* `fill` — the arguments in the places of their placeholders.
* `Dialect`, `Statement`, `parse` — what is read.
* `meaning` — what a text with arguments says to a server.

## Main results

* `tokens_space`, `tokens_word`, `tokens_mark`, `tokens_text` — a text is cut piece by piece.
* `readItems_items` — a list is read item by item.
* `parse_insert`, `parse_update`, `parse_delete` — **the pieces of a statement are read as it.**
-/

namespace SqlStatement

open SqlLiteral

/-! ### Pieces -/

/-- A piece of a text: a word, the value of a literal, or a mark. -/
inductive Token
  | word (w : List Char)
  | text (value : List Char)
  | mark (c : Char)
  deriving DecidableEq, Repr

def isSpace (c : Char) : Bool := isNewline c || isHorizontal c

def isWordChar (c : Char) : Bool := c.isAlphanum || c == '_' || c == '$'

/-- A comment begins. -/
def opensComment (c : Char) (next : Option Char) : Bool :=
  c == '#' || c == '-' && next == some '-' || c == '/' && next == some '*'

/-- The pieces of a text; it has at most as many characters as the number says. -/
def lex (b : Backslash) : ℕ → List Char → Option (List Token)
  | _, [] => some []
  | 0, _ :: _ => none
  | n + 1, c :: cs =>
    if isSpace c then lex b n cs
    else if isWordChar c then
      (lex b n (cs.dropWhile isWordChar)).map (.word (c :: cs.takeWhile isWordChar) :: ·)
    else if c = '\'' then
      match read b 0 cs with
      | some (value, rest) => (lex b n rest).map (.text value :: ·)
      | none => none
    else if opensComment c cs.head? then none
    else (lex b n cs).map (.mark c :: ·)

/-- The pieces of a text. -/
def tokens (b : Backslash) (text : List Char) : Option (List Token) := lex b text.length text

variable {b : Backslash} {c : Char} {cs text : List Char}

/-- A longer time does not change them. -/
theorem lex_eq_tokens {n : ℕ} (h : cs.length ≤ n) : lex b n cs = tokens b cs := by
  unfold tokens
  induction hk : cs.length using Nat.strongRecOn generalizing n cs with
  | _ k ih =>
    subst hk
    cases cs with
    | nil => cases n <;> rfl
    | cons c cs =>
      obtain ⟨m, rfl⟩ : ∃ m, n = m + 1 := Nat.exists_eq_add_one_of_ne_zero (by
        rw [List.length_cons] at h
        omega)
      have hsame : ∀ rest : List Char, rest.length ≤ cs.length →
          lex b m rest = lex b cs.length rest := by
        intro rest hrest
        have hless : rest.length < (c :: cs).length := Nat.lt_succ_of_le hrest
        rw [List.length_cons] at h
        exact (ih _ hless (by omega) rfl).trans (ih _ hless hrest rfl).symm
      rw [List.length_cons, lex, lex, hsame cs (Nat.le_refl _),
        hsame _ (List.dropWhile_suffix _).length_le]
      split
      · rfl
      · split
        · rfl
        · split
          · cases hread : read b 0 cs with
            | none => rfl
            | some r =>
              obtain ⟨value, rest⟩ := r
              dsimp only
              rw [hsame rest (Nat.le_of_lt (length_of_read hread))]
          · rfl

@[simp] theorem tokens_nil : tokens b [] = some [] := rfl

theorem tokens_cons : tokens b (c :: cs) =
    if isSpace c then tokens b cs
    else if isWordChar c then
      (tokens b (cs.dropWhile isWordChar)).map (.word (c :: cs.takeWhile isWordChar) :: ·)
    else if c = '\'' then
      match read b 0 cs with
      | some (value, rest) => (tokens b rest).map (.text value :: ·)
      | none => none
    else if opensComment c cs.head? then none
    else (tokens b cs).map (.mark c :: ·) := by
  have hrest : ∀ rest : List Char, rest.length ≤ cs.length →
      lex b cs.length rest = tokens b rest := fun rest h => lex_eq_tokens h
  rw [tokens, List.length_cons, lex, hrest cs (Nat.le_refl _),
    hrest _ (List.dropWhile_suffix _).length_le]
  cases hread : read b 0 cs with
  | none => rfl
  | some r =>
    obtain ⟨value, rest⟩ := r
    dsimp only
    rw [hrest rest (Nat.le_of_lt (length_of_read hread))]

/-- Space between two pieces is none. -/
theorem tokens_space {ws : List Char} (hws : ws.all isSpace = true) (text : List Char) :
    tokens b (ws ++ text) = tokens b text := by
  induction ws with
  | nil => rfl
  | cons c ws ih =>
    rw [List.all_cons, Bool.and_eq_true] at hws
    rw [List.cons_append, tokens_cons, if_pos hws.1, ih hws.2]

/-- A word ends where no more of its characters come. -/
def Ends (text : List Char) : Prop := ∀ c, text.head? = some c → isWordChar c = false

theorem isSpace_of_isWordChar (h : isWordChar c = true) : isSpace c = false := by
  by_contra hspace
  rw [Bool.not_eq_false] at hspace
  simp only [isSpace, isNewline, isHorizontal, Bool.or_eq_true, beq_iff_eq] at hspace
  rcases hspace with (rfl | rfl) | (rfl | rfl) | rfl <;> exact absurd h (by decide)

/-- A word is a piece. -/
theorem tokens_word {w : List Char} (hw : w.all isWordChar = true) (hne : w ≠ [])
    (hends : Ends text) : tokens b (w ++ text) = (tokens b text).map (.word w :: ·) := by
  obtain ⟨c, cs, rfl⟩ := List.exists_cons_of_ne_nil hne
  rw [List.all_cons, Bool.and_eq_true] at hw
  obtain ⟨hc, hcs⟩ := hw
  have hcs' : ∀ d ∈ cs, isWordChar d = true := List.all_eq_true.mp hcs
  have htake : (cs ++ text).takeWhile isWordChar = cs := by
    rw [List.takeWhile_append_of_pos hcs']
    cases text with
    | nil => rw [List.takeWhile_nil, List.append_nil]
    | cons d text =>
      rw [List.takeWhile_cons_of_neg (by simp [hends d rfl]), List.append_nil]
  have hdrop : (cs ++ text).dropWhile isWordChar = text := by
    rw [List.dropWhile_append_of_pos hcs']
    cases text with
    | nil => rfl
    | cons d text => exact List.dropWhile_cons_of_neg (by simp [hends d rfl])
  rw [List.cons_append, tokens_cons, if_neg (by simp [isSpace_of_isWordChar hc]), if_pos hc,
    htake, hdrop]

/-- A word between spaces. -/
theorem tokens_spaced {ws w : List Char} (hws : ws.all isSpace = true)
    (hw : w.all isWordChar = true) (hne : w ≠ []) {after : List Char}
    (hafter : after.all isSpace = true) (hsome : after ≠ []) (text : List Char) :
    tokens b (ws ++ (w ++ (after ++ text))) = (tokens b text).map (.word w :: ·) := by
  have hends : Ends (after ++ text) := by
    obtain ⟨c, cs, rfl⟩ := List.exists_cons_of_ne_nil hsome
    intro d hd
    obtain rfl : c = d := Option.some.inj hd
    by_contra hword
    rw [Bool.not_eq_false] at hword
    rw [List.all_cons, isSpace_of_isWordChar hword] at hafter
    exact absurd hafter Bool.false_ne_true
  rw [tokens_space hws, tokens_word hw hne hends, tokens_space hafter]

/-- A mark is a piece. -/
theorem tokens_mark (hspace : isSpace c = false) (hword : isWordChar c = false)
    (hquote : c ≠ '\'') (hcomment : opensComment c text.head? = false) :
    tokens b (c :: text) = (tokens b text).map (.mark c :: ·) := by
  rw [tokens_cons, if_neg (by simp [hspace]), if_neg (by simp [hword]), if_neg hquote,
    if_neg (by simp [hcomment])]

/-- A literal is a piece. -/
theorem tokens_text {literal value : List Char}
    (hread : read b 0 (literal ++ '\'' :: text) = some (value, text)) :
    tokens b ('\'' :: (literal ++ '\'' :: text)) = (tokens b text).map (.text value :: ·) := by
  rw [tokens_cons, if_neg (by decide), if_neg (by decide), if_pos rfl, hread]

/-! ### Arguments -/

/-- The arguments stand in the places of the placeholders, in their order; there are as many. -/
def fill : List Token → List (List Char) → Option (List Token)
  | [], values => if values.isEmpty then some [] else none
  | t :: ts, values =>
    if t = .mark '?' then
      match values with
      | [] => none
      | value :: values => (fill ts values).map (.text value :: ·)
    else (fill ts values).map (t :: ·)

/-! ### Statements -/

/-- A value of a statement. -/
inductive Value
  | text (value : List Char)
  | number (n : ℕ)
  deriving DecidableEq, Repr

/-- A statement that changes a row. -/
inductive Statement
  | insert (table : List Char) (fields : List (List Char)) (values : List Value)
  | update (table : List Char) (assignments : List (List Char × Value)) (key : List Char)
      (value : Value)
  | delete (table key : List Char) (value : Value)
  deriving DecidableEq, Repr

/-- What servers differ in. -/
structure Dialect where
  backslash : Backslash
  /-- A name as the server keeps it. -/
  fold : List Char → List Char
  /-- Words that are no names. -/
  reserved : List Char → Bool
  where_reserved : reserved "WHERE".toList = true
  /-- A row may be written without a field. -/
  emptyRow : Bool

/-- A name begins with a letter. -/
def isName (w : List Char) : Bool :=
  w.all isWordChar && match w.head? with
    | some c => c.isAlpha || c == '_'
    | none => false

theorem word_of_isName {w : List Char} (h : isName w = true) :
    w.all isWordChar = true ∧ w ≠ [] := by
  obtain ⟨hword, hhead⟩ := Bool.and_eq_true_iff.mp h
  refine ⟨hword, ?_⟩
  rintro rfl
  exact absurd hhead Bool.false_ne_true

/-- Read one word of the statement itself; it may be in small letters. -/
def readKeyword (keyword : String) : List Token → Option (List Token)
  | .word w :: ts => if w.map Char.toUpper = keyword.toList then some ts else none
  | _ => none

def readMark (c : Char) : List Token → Option (List Token)
  | .mark d :: ts => if d = c then some ts else none
  | _ => none

def readValue : List Token → Option (Value × List Token)
  | .text value :: ts => some (.text value, ts)
  | .word w :: ts =>
    if w.all Char.isDigit then some (.number (Nat.ofDigitChars 10 w 0), ts) else none
  | _ => none

/-- A list with commas between its items. -/
def readItems {α : Type} (item : List Token → Option (α × List Token)) :
    ℕ → List Token → Option (List α × List Token)
  | 0, _ => none
  | n + 1, ts =>
    match item ts with
    | none => none
    | some (x, rest) =>
      match readMark ',' rest with
      | some rest => (readItems item n rest).map fun r => (x :: r.1, r.2)
      | none => some ([x], rest)

/-- The same between parentheses. -/
def readGroup {α : Type} (empty : Bool) (item : List Token → Option (α × List Token))
    (ts : List Token) : Option (List α × List Token) := do
  let ts ← readMark '(' ts
  match empty, readMark ')' ts with
  | true, some ts => some ([], ts)
  | _, _ =>
    let (xs, ts) ← readItems item ts.length ts
    let ts ← readMark ')' ts
    some (xs, ts)

section Dialect

variable (d : Dialect)

def readName : List Token → Option (List Char × List Token)
  | .word w :: ts => if isName w ∧ d.reserved w = false then some (d.fold w, ts) else none
  | _ => none

/-- A field and its value. -/
def readAssignment (ts : List Token) : Option ((List Char × Value) × List Token) := do
  let (field, ts) ← readName d ts
  let ts ← readMark '=' ts
  let (value, ts) ← readValue ts
  some ((field, value), ts)

/-- The row a statement is about, at its end. -/
def readWhere (ts : List Token) : Option (List Char × Value) := do
  let ts ← readKeyword "WHERE" ts
  match ← readAssignment d ts with
  | (which, []) => some which
  | (_, _ :: _) => none

def parseInsert (ts : List Token) : Option Statement := do
  let ts ← readKeyword "INSERT" ts
  let ts ← readKeyword "INTO" ts
  let (table, ts) ← readName d ts
  let (fields, ts) ← readGroup d.emptyRow (readName d) ts
  let ts ← readKeyword "VALUES" ts
  match ← readGroup d.emptyRow readValue ts with
  | (values, []) =>
    if fields.length = values.length then some (.insert table fields values) else none
  | (_, _ :: _) => none

def parseUpdate (ts : List Token) : Option Statement := do
  let ts ← readKeyword "UPDATE" ts
  let (table, ts) ← readName d ts
  let ts ← readKeyword "SET" ts
  let (assignments, ts) ← readItems (readAssignment d) ts.length ts
  let (key, value) ← readWhere d ts
  some (.update table assignments key value)

def parseDelete (ts : List Token) : Option Statement := do
  let ts ← readKeyword "DELETE" ts
  let ts ← readKeyword "FROM" ts
  let (table, ts) ← readName d ts
  let (key, value) ← readWhere d ts
  some (.delete table key value)

def parse (ts : List Token) : Option Statement :=
  (parseInsert d ts).or ((parseUpdate d ts).or (parseDelete d ts))

/-- What a text says to a server, with its arguments. -/
def meaning (text : List Char) (arguments : List (List Char)) : Option Statement := do
  let ts ← tokens d.backslash text
  let ts ← fill ts arguments
  parse d ts

end Dialect

/-! ### Lists of pieces -/

/-- Pieces with commas between them. -/
def items {α : Type*} (f : α → List Token) : List α → List Token
  | [] => []
  | x :: xs => f x ++ xs.flatMap fun y => .mark ',' :: f y

variable {α : Type} {b : Backslash}

theorem items_map {β : Type*} (g : α → β) (f : β → List Token) (xs : List α) :
    items f (xs.map g) = items (fun x => f (g x)) xs := by
  cases xs with
  | nil => rfl
  | cons x xs => rw [List.map_cons, items, items, List.flatMap_map]

/-- What may stand behind a word or a literal without changing it. -/
def Closes (text : List Char) : Prop := Ends text ∧ ¬ Continues text

theorem tokens_flatMap {P : List Char → Prop} {g : α → List Char} {f : α → List Token}
    {sep : List Char} {xs : List α}
    (hpiece : ∀ x ∈ xs, ∀ t, P t → tokens b (g x ++ t) = (tokens b t).map (f x ++ ·))
    (hsep : ∀ t, P (sep ++ t))
    (hcomma : ∀ t, tokens b (sep ++ t) = (tokens b t).map (.mark ',' :: ·))
    {text : List Char} (htext : P text) :
    tokens b ((xs.flatMap fun x => sep ++ g x) ++ text) =
        (tokens b text).map ((xs.flatMap fun x => .mark ',' :: f x) ++ ·) ∧
      P ((xs.flatMap fun x => sep ++ g x) ++ text) := by
  induction xs with
  | nil => exact ⟨Option.map_id'.symm, htext⟩
  | cons x xs ih =>
    obtain ⟨hrest, hP⟩ := ih fun y hy => hpiece y (List.mem_cons_of_mem _ hy)
    rw [List.flatMap_cons, List.append_assoc, List.append_assoc]
    refine ⟨?_, hsep _⟩
    rw [hcomma, hpiece x List.mem_cons_self _ hP, hrest, Option.map_map, Option.map_map]
    simp only [Function.comp_def, List.flatMap_cons, List.cons_append, List.append_assoc]

/-- A list is cut item by item. -/
theorem tokens_items {P : List Char → Prop} {g : α → List Char} {f : α → List Token}
    {sep : List Char} {xs : List α}
    (hpiece : ∀ x ∈ xs, ∀ t, P t → tokens b (g x ++ t) = (tokens b t).map (f x ++ ·))
    (hsep : ∀ t, P (sep ++ t))
    (hcomma : ∀ t, tokens b (sep ++ t) = (tokens b t).map (.mark ',' :: ·))
    {text : List Char} (htext : P text) :
    tokens b (sep.intercalate (xs.map g) ++ text) =
      (tokens b text).map (items f xs ++ ·) := by
  cases xs with
  | nil => exact Option.map_id'.symm
  | cons x xs =>
    obtain ⟨hrest, hP⟩ :=
      tokens_flatMap (fun y hy => hpiece y (List.mem_cons_of_mem _ hy)) hsep hcomma htext
    have hjoin := @Pieces.intercalate_append_cons _ (g x) sep [] (xs.map g)
    rw [List.nil_append, List.flatMap_nil, List.nil_append, List.flatMap_map] at hjoin
    rw [List.map_cons, hjoin, List.append_assoc, hpiece x List.mem_cons_self _ hP, hrest,
      Option.map_map]
    simp only [Function.comp_def, items, List.append_assoc]

theorem fill_nil (values : List (List Char)) :
    fill [] values = if values.isEmpty then some [] else none := rfl

theorem fill_cons (t : Token) (ts : List Token) (values : List (List Char)) :
    fill (t :: ts) values = if t = .mark '?' then
      match values with
      | [] => none
      | value :: values => (fill ts values).map (.text value :: ·)
    else (fill ts values).map (t :: ·) := rfl

/-- The arguments of a text are those of its parts. -/
theorem fill_append {ts ts' us : List Token} {vs ws : List (List Char)}
    (h : fill ts vs = some ts') : fill (ts ++ us) (vs ++ ws) = (fill us ws).map (ts' ++ ·) := by
  induction ts generalizing ts' vs with
  | nil =>
    rw [fill_nil] at h
    split_ifs at h with hempty
    obtain rfl := List.isEmpty_iff.mp hempty
    obtain rfl := Option.some.inj h
    exact Option.map_id'.symm
  | cons t ts ih =>
    rw [fill_cons] at h
    rw [List.cons_append, fill_cons]
    split_ifs at h ⊢ with hmark
    · cases vs with
      | nil => cases h
      | cons value vs =>
        obtain ⟨rest, hrest, rfl⟩ := Option.map_eq_some_iff.mp h
        simp only [List.cons_append, ih hrest, Option.map_map, Function.comp_def]
    · obtain ⟨rest, hrest, rfl⟩ := Option.map_eq_some_iff.mp h
      simp only [ih hrest, Option.map_map, Function.comp_def, List.cons_append]

/-- Pieces without a placeholder have no arguments. -/
theorem fill_plain {ts : List Token} (h : .mark '?' ∉ ts) : fill ts [] = some ts := by
  induction ts with
  | nil => rfl
  | cons t ts ih =>
    rw [List.mem_cons, not_or] at h
    rw [fill_cons, if_neg (Ne.symm h.1), ih h.2, Option.map_some]

theorem fill_flatMap {f f' : α → List Token} {vs : α → List (List Char)} {xs : List α}
    (h : ∀ x ∈ xs, fill (f x) (vs x) = some (f' x)) :
    fill (xs.flatMap fun x => .mark ',' :: f x) (xs.flatMap vs) =
      some (xs.flatMap fun x => .mark ',' :: f' x) := by
  induction xs with
  | nil => rfl
  | cons x xs ih =>
    have hx := h x List.mem_cons_self
    have hcomma : fill (.mark ',' :: f x) (vs x) = some (.mark ',' :: f' x) := by
      rw [fill_cons, if_neg (by decide), hx, Option.map_some]
    rw [List.flatMap_cons, List.flatMap_cons, fill_append hcomma,
      ih fun y hy => h y (List.mem_cons_of_mem _ hy), Option.map_some, List.flatMap_cons]

/-- The arguments of a list are those of its items. -/
theorem fill_items {f f' : α → List Token} {vs : α → List (List Char)} {xs : List α}
    (h : ∀ x ∈ xs, fill (f x) (vs x) = some (f' x)) :
    fill (items f xs) (xs.flatMap vs) = some (items f' xs) := by
  cases xs with
  | nil => rfl
  | cons x xs =>
    rw [items, List.flatMap_cons, fill_append (h x List.mem_cons_self),
      fill_flatMap fun y hy => h y (List.mem_cons_of_mem _ hy), Option.map_some, items]

/-- A list has the pieces of its items, and commas. -/
theorem notMem_items {t : Token} {f : α → List Token} {xs : List α} (hcomma : t ≠ .mark ',')
    (h : ∀ x ∈ xs, t ∉ f x) : t ∉ items f xs := by
  cases xs with
  | nil => exact List.not_mem_nil
  | cons x xs =>
    rw [items, List.mem_append, List.mem_flatMap, not_or]
    refine ⟨h x List.mem_cons_self, ?_⟩
    rintro ⟨y, hy, hmem⟩
    rcases List.mem_cons.mp hmem with heq | hin
    · exact hcomma heq
    · exact h y (List.mem_cons_of_mem _ hy) hin

/-- **A list is read item by item.** -/
theorem readItems_items {β : Type} {item : List Token → Option (β × List Token)}
    {f : α → List Token} {g : α → β} {xs : List α} (hne : xs ≠ [])
    (hitem : ∀ x ∈ xs, ∀ rest, item (f x ++ rest) = some (g x, rest))
    {rest : List Token} (hrest : readMark ',' rest = none) {n : ℕ} (hn : xs.length ≤ n) :
    readItems item n (items f xs ++ rest) = some (xs.map g, rest) := by
  obtain ⟨x, xs, rfl⟩ := List.exists_cons_of_ne_nil hne
  clear hne
  induction xs generalizing x n with
  | nil =>
    obtain ⟨m, rfl⟩ := Nat.exists_eq_add_one_of_ne_zero (Nat.ne_of_gt hn)
    rw [readItems, items, List.flatMap_nil, List.append_nil, hitem x List.mem_cons_self]
    dsimp only
    rw [hrest]
    rfl
  | cons y ys ih =>
    rw [List.length_cons] at hn
    obtain ⟨m, rfl⟩ := Nat.exists_eq_add_one_of_ne_zero (Nat.ne_of_gt (Nat.zero_lt_of_lt hn))
    have hlater := ih y (fun z hz => hitem z (List.mem_cons_of_mem _ hz))
      (Nat.le_of_succ_le_succ hn)
    rw [readItems, items, List.append_assoc, hitem x List.mem_cons_self, List.flatMap_cons]
    dsimp only
    rw [List.cons_append, List.cons_append, readMark, if_pos rfl]
    dsimp only
    rw [← items, hlater]
    rfl

theorem length_items (f : α → List Token) (xs : List α) : xs.length ≤ (items f xs).length + 1 := by
  cases xs with
  | nil => exact Nat.zero_le _
  | cons x xs =>
    have hmore : xs.length ≤ (xs.flatMap fun y => .mark ',' :: f y).length := by
      induction xs with
      | nil => exact Nat.le_refl _
      | cons y ys ih =>
        rw [List.flatMap_cons, List.length_append, List.length_cons, List.length_cons]
        omega
    rw [items, List.length_append, List.length_cons]
    omega

theorem readMark_self (c : Char) (ts : List Token) : readMark c (.mark c :: ts) = some ts :=
  if_pos rfl

/-- A list between parentheses. -/
theorem readGroup_items {β : Type} {item : List Token → Option (β × List Token)}
    {f : α → List Token} {g : α → β} {xs : List α} (hne : xs ≠ []) (empty : Bool)
    (hitem : ∀ x ∈ xs, ∀ rest, item (f x ++ rest) = some (g x, rest))
    (hstart : ∀ x ∈ xs, ∀ rest, readMark ')' (f x ++ rest) = none) (ts : List Token) :
    readGroup empty item (.mark '(' :: (items f xs ++ .mark ')' :: ts)) =
      some (xs.map g, ts) := by
  have hlength : xs.length ≤ (items f xs ++ .mark ')' :: ts).length := by
    have hitems := length_items f xs
    rw [List.length_append, List.length_cons]
    omega
  have hopen : readMark ')' (items f xs ++ .mark ')' :: ts) = none := by
    obtain ⟨x, xs, rfl⟩ := List.exists_cons_of_ne_nil hne
    rw [items, List.append_assoc]
    exact hstart x List.mem_cons_self _
  have hrest : readMark ',' (.mark ')' :: ts) = none := rfl
  have hread := readItems_items hne hitem hrest hlength
  simp only [readGroup, Option.bind_eq_bind, readMark_self, Option.bind_some, hopen, hread]

/-- An empty list is one where a row may have no field. -/
theorem readGroup_empty {β : Type} {item : List Token → Option (β × List Token)} (empty : Bool)
    (hitem : ∀ rest, item (.mark ')' :: rest) = none) (ts : List Token) :
    readGroup empty item (.mark '(' :: .mark ')' :: ts) =
      if empty then some ([], ts) else none := by
  simp only [readGroup, Option.bind_eq_bind, readMark_self, Option.bind_some]
  cases empty with
  | true => rfl
  | false =>
    show (readItems item (ts.length + 1) (.mark ')' :: ts)).bind _ = none
    rw [readItems, hitem]
    rfl

/-! ### Whole statements -/

section Dialect

variable {d : Dialect}

theorem readKeyword_self {keyword : String}
    (h : keyword.toList.map Char.toUpper = keyword.toList) (ts : List Token) :
    readKeyword keyword (.word keyword.toList :: ts) = some ts := if_pos h

/-- A name as it stands in a statement. -/
structure Dialect.Names (d : Dialect) (w : List Char) : Prop where
  isName : isName w = true
  reserved : d.reserved w = false

instance (d : Dialect) (w : List Char) : Decidable (d.Names w) :=
  decidable_of_iff (isName w = true ∧ d.reserved w = false)
    ⟨fun h => ⟨h.1, h.2⟩, fun h => ⟨h.1, h.2⟩⟩

theorem readName_self {w : List Char} (h : d.Names w) (ts : List Token) :
    readName d (.word w :: ts) = some (d.fold w, ts) := if_pos ⟨h.isName, h.reserved⟩

/-- The pieces of an `INSERT`. -/
def insertTokens (table : List Char) (fields values : List Token) : List Token :=
  .word "INSERT".toList :: .word "INTO".toList :: .word table :: .mark '(' ::
    (fields ++ .mark ')' :: .word "VALUES".toList :: .mark '(' :: (values ++ [.mark ')']))

/-- The arguments of an `INSERT` are those of its values. -/
theorem fill_insertTokens {table : List Char} {fields values values' : List Token}
    {arguments : List (List Char)} (hfields : .mark '?' ∉ fields)
    (hvalues : fill values arguments = some values') :
    fill (insertTokens table fields values) arguments =
      some (insertTokens table fields values') := by
  let front : List Token := .word "INSERT".toList :: .word "INTO".toList :: .word table ::
    .mark '(' :: (fields ++ [.mark ')', .word "VALUES".toList, .mark '('])
  have hsplit : ∀ values : List Token,
      insertTokens table fields values = front ++ (values ++ [.mark ')']) := fun values => by
    simp only [insertTokens, front, List.cons_append, List.append_assoc, List.nil_append]
  have hfront : fill front [] = some front := fill_plain (by simp [front, hfields])
  have hend : fill (values ++ [.mark ')']) (arguments ++ []) = some (values' ++ [.mark ')']) :=
    fill_append hvalues
  rw [List.append_nil] at hend
  have hall := @fill_append front front (values ++ [.mark ')']) [] arguments hfront
  rw [hsplit, hsplit, ← List.nil_append arguments, hall, hend, Option.map_some]

/-- The pieces of the condition. -/
def whereTokens (key : List Char) (value : Token) : List Token :=
  [.word "WHERE".toList, .word key, .mark '=', value]

/-- The pieces of an `UPDATE`. -/
def updateTokens (table : List Char) (assignments : List Token) (condition : List Token) :
    List Token :=
  .word "UPDATE".toList :: .word table :: .word "SET".toList :: (assignments ++ condition)

/-- The pieces of a `DELETE`. -/
def deleteTokens (table : List Char) (condition : List Token) : List Token :=
  .word "DELETE".toList :: .word "FROM".toList :: .word table :: condition

/-- The arguments of an `UPDATE` are those of its fields and of its condition. -/
theorem fill_updateTokens {table : List Char} {fields fields' condition condition' : List Token}
    {vs ws : List (List Char)} (hfields : fill fields vs = some fields')
    (hcondition : fill condition ws = some condition') :
    fill (updateTokens table fields condition) (vs ++ ws) =
      some (updateTokens table fields' condition') := by
  let front : List Token := [.word "UPDATE".toList, .word table, .word "SET".toList]
  have hfront : fill front [] = some front := fill_plain (by simp [front])
  have hrest : fill (fields ++ condition) (vs ++ ws) = some (fields' ++ condition') := by
    rw [fill_append hfields, hcondition, Option.map_some]
  have hall := @fill_append front front (fields ++ condition) [] (vs ++ ws) hfront
  rw [hrest] at hall
  exact hall

/-- The arguments of a `DELETE` are those of its condition. -/
theorem fill_deleteTokens {table : List Char} {condition condition' : List Token}
    {ws : List (List Char)} (hcondition : fill condition ws = some condition') :
    fill (deleteTokens table condition) ws = some (deleteTokens table condition') := by
  let front : List Token := [.word "DELETE".toList, .word "FROM".toList, .word table]
  have hfront : fill front [] = some front := fill_plain (by simp [front])
  have hall := @fill_append front front condition [] ws hfront
  rw [hcondition] at hall
  exact hall

/-- **An `INSERT` is read as it.** -/
theorem parse_insert {table : List Char} (htable : d.Names table) {fields : List (List Char)}
    (hfields : ∀ w ∈ fields, d.Names w) {values : List (List Char)}
    (hlength : fields.length = values.length) (hne : fields ≠ []) :
    parse d (insertTokens table (items (fun w => [.word w]) fields)
      (items (fun v => [.text v]) values)) =
        some (.insert (d.fold table) (fields.map d.fold) (values.map .text)) := by
  have hvalues : values ≠ [] := by
    rintro rfl
    exact hne (List.length_eq_zero_iff.mp hlength)
  have hinsert := fun ts => @readKeyword_self "INSERT" (by decide) ts
  have hinto := fun ts => @readKeyword_self "INTO" (by decide) ts
  have hkeyword := fun ts => @readKeyword_self "VALUES" (by decide) ts
  have hnames := fun ts => @readGroup_items _ _ (readName d) (fun w => [.word w]) d.fold fields hne
    d.emptyRow (fun w hw rest => readName_self (hfields w hw) rest) (fun _ _ _ => rfl) ts
  have htexts := fun ts => @readGroup_items _ _ readValue (fun v => [.text v]) Value.text values
    hvalues d.emptyRow (fun _ _ _ => rfl) (fun _ _ _ => rfl) ts
  have hparse : parseInsert d (insertTokens table (items (fun w => [.word w]) fields)
      (items (fun v => [.text v]) values)) =
        some (.insert (d.fold table) (fields.map d.fold) (values.map .text)) := by
    simp only [parseInsert, insertTokens, Option.bind_eq_bind, hinsert, hinto, hkeyword,
      readName_self htable, hnames, htexts, Option.bind_some, List.length_map, hlength, if_true]
  rw [parse, hparse]
  rfl

/-- An `INSERT` without a field is one where a row may have none. -/
theorem parse_insert_empty {table : List Char} (htable : d.Names table) :
    parse d (insertTokens table [] []) =
      if d.emptyRow then some (.insert (d.fold table) [] []) else none := by
  have hinsert := fun ts => @readKeyword_self "INSERT" (by decide) ts
  have hinto := fun ts => @readKeyword_self "INTO" (by decide) ts
  have hkeyword := fun ts => @readKeyword_self "VALUES" (by decide) ts
  have hnames := fun empty ts => @readGroup_empty _ (readName d) empty (fun _ => rfl) ts
  have htexts := fun empty ts => @readGroup_empty _ readValue empty (fun _ => rfl) ts
  have hothers : ∀ ts, (parseUpdate d (.word "INSERT".toList :: ts)).or
      (parseDelete d (.word "INSERT".toList :: ts)) = none := fun ts => rfl
  have hparse : parseInsert d (insertTokens table [] []) =
      if d.emptyRow then some (.insert (d.fold table) [] []) else none := by
    simp only [parseInsert, insertTokens, Option.bind_eq_bind, hinsert, hinto,
      readName_self htable, List.nil_append, hnames, Option.bind_some]
    cases d.emptyRow with
    | false => rfl
    | true => simp only [if_true, Option.bind_some, hkeyword, htexts, List.length_nil]
  rw [parse, hparse, insertTokens, hothers, Option.or_none]

/-- A field and its value. -/
def assignmentTokens (field : List Char) (value : Token) : List Token :=
  [.word field, .mark '=', value]

theorem readAssignment_self {field : List Char} (h : d.Names field) (value : List Char)
    (rest : List Token) : readAssignment d (assignmentTokens field (.text value) ++ rest) =
      some ((d.fold field, .text value), rest) := by
  simp only [readAssignment, assignmentTokens, List.cons_append, List.nil_append,
    readName_self h, readMark_self, Option.bind_eq_bind, Option.bind_some, readValue]

/-- The condition is read as it, for a key that is a name and a constant. -/
theorem readWhere_self {key : List Char} (h : d.Names key) {token : Token} {value : Value}
    (hvalue : readValue [token] = some (value, [])) :
    readWhere d (whereTokens key token) = some (d.fold key, value) := by
  have hkeyword := fun ts => @readKeyword_self "WHERE" (by decide) ts
  simp only [readWhere, readAssignment, whereTokens, hkeyword, readName_self h, readMark_self,
    hvalue, Option.bind_eq_bind, Option.bind_some]

/-- Without a key there is no condition. -/
theorem readWhere_no_key (token : Token) :
    readWhere d [.word "WHERE".toList, .mark '=', token] = none := by
  have hkeyword := fun ts => @readKeyword_self "WHERE" (by decide) ts
  simp only [readWhere, readAssignment, hkeyword, readName, Option.bind_eq_bind, Option.bind_some,
    Option.bind_none]

/-- **An `UPDATE` is read as it**, if its condition is read. -/
theorem parse_update {table : List Char} (htable : d.Names table)
    {data : List (List Char × List Char)} (hdata : ∀ f ∈ data, d.Names f.1) (hne : data ≠ [])
    (w : List Char) (ts : List Token) :
    parse d (updateTokens table (items (fun f => assignmentTokens f.1 (.text f.2)) data)
      (.word w :: ts)) =
        (readWhere d (.word w :: ts)).map fun which =>
          .update (d.fold table) (data.map fun f => (d.fold f.1, .text f.2)) which.1 which.2 := by
  have hinsert : ∀ ts, parseInsert d (.word "UPDATE".toList :: ts) = none := fun ts => rfl
  have hdelete : ∀ ts, parseDelete d (.word "UPDATE".toList :: ts) = none := fun ts => rfl
  have hupdate := fun ts => @readKeyword_self "UPDATE" (by decide) ts
  have hset := fun ts => @readKeyword_self "SET" (by decide) ts
  have hlength : data.length ≤ (items (fun f => assignmentTokens f.1 (.text f.2)) data ++
      .word w :: ts).length := by
    have hitems := length_items (fun f => assignmentTokens f.1 (.text f.2)) data
    rw [List.length_append, List.length_cons]
    omega
  have hassignments := @readItems_items _ _ (readAssignment d)
    (fun f => assignmentTokens f.1 (.text f.2)) (fun f => (d.fold f.1, Value.text f.2)) data hne
    (fun f hf rest => readAssignment_self (hdata f hf) f.2 rest) (.word w :: ts) rfl _ hlength
  have hparse : parseUpdate d (updateTokens table
      (items (fun f => assignmentTokens f.1 (.text f.2)) data) (.word w :: ts)) =
        (readWhere d (.word w :: ts)).map fun which =>
          .update (d.fold table) (data.map fun f => (d.fold f.1, .text f.2)) which.1 which.2 := by
    simp only [parseUpdate, updateTokens, hupdate, readName_self htable, hset, hassignments,
      Option.bind_eq_bind, Option.bind_some]
    cases readWhere d (.word w :: ts) <;> rfl
  rw [parse, hparse, updateTokens, hinsert, hdelete, Option.or_none, Option.none_or]

/-- An `UPDATE` that changes no field is none. -/
theorem parse_update_empty {table : List Char} (htable : d.Names table) (ts : List Token) :
    parse d (updateTokens table [] (.word "WHERE".toList :: ts)) = none := by
  have hinsert : ∀ ts, parseInsert d (.word "UPDATE".toList :: ts) = none := fun ts => rfl
  have hdelete : ∀ ts, parseDelete d (.word "UPDATE".toList :: ts) = none := fun ts => rfl
  have hupdate := fun ts => @readKeyword_self "UPDATE" (by decide) ts
  have hset := fun ts => @readKeyword_self "SET" (by decide) ts
  have hitems : ∀ n, readItems (readAssignment d) n (.word "WHERE".toList :: ts) = none := by
    have hassignment : readAssignment d (.word "WHERE".toList :: ts) = none := by
      rw [readAssignment, readName, if_neg fun h => absurd h.2 (by rw [d.where_reserved]; decide)]
      rfl
    intro n
    cases n with
    | zero => rfl
    | succ n => rw [readItems, hassignment]
  have hparse : parseUpdate d (updateTokens table [] (.word "WHERE".toList :: ts)) = none := by
    simp only [parseUpdate, updateTokens, hupdate, readName_self htable, hset, List.nil_append,
      hitems, Option.bind_eq_bind, Option.bind_some, Option.bind_none]
  rw [parse, hparse, updateTokens, hinsert, hdelete]
  rfl

/-- **A `DELETE` is read as it**, if its condition is read. -/
theorem parse_delete {table : List Char} (htable : d.Names table) (condition : List Token) :
    parse d (deleteTokens table condition) =
      (readWhere d condition).map fun which => .delete (d.fold table) which.1 which.2 := by
  have hinsert : ∀ ts, parseInsert d (.word "DELETE".toList :: ts) = none := fun ts => rfl
  have hupdate : ∀ ts, parseUpdate d (.word "DELETE".toList :: ts) = none := fun ts => rfl
  have hdelete := fun ts => @readKeyword_self "DELETE" (by decide) ts
  have hfrom := fun ts => @readKeyword_self "FROM" (by decide) ts
  have hparse : parseDelete d (deleteTokens table condition) =
      (readWhere d condition).map fun which => .delete (d.fold table) which.1 which.2 := by
    simp only [parseDelete, deleteTokens, hdelete, hfrom, readName_self htable,
      Option.bind_eq_bind, Option.bind_some]
    cases readWhere d condition <;> rfl
  rw [parse, hparse, deleteTokens, hinsert, hupdate, Option.none_or, Option.none_or]

end Dialect

end SqlStatement
