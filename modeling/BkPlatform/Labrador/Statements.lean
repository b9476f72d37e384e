import BkPlatform.Labrador.Postgres
import BkPlatform.Lib.SqlStatement

/-!
# One statement in three adapters

The relational adapters write a row each in their own way: Postgres with the values escaped in
the text, SQLite with a placeholder for each, MySQL with literals where the row is new and with
placeholders where it is there.  To their servers all of them say the same, apart from what
Postgres does with names and backslashes, and from a row without a field, which MySQL alone
writes.

`escape_string` is that of the MySQL driver.

## Main definitions

* `Mysql.create`, `Mysql.update`, `Mysql.delete`, and those of `Sqlite` — the statements.
* `mysql`, `sqlite`, `postgres` — the servers.

## Main results

* `create_agrees_iff` — **when the adapters write the same new row.**
* `changes_agree` — **MySQL and SQLite change and delete the same, or nothing.**
-/

namespace BkPlatform.Labrador

open SqlLiteral SqlStatement
open Postgres (Data)

/-! ### The statements -/

namespace Mysql

/-- The statement of `create`. -/
def create (escapeString : String → List Char) (collectionName : String) (data : Data) :
    List Char :=
  "\n        INSERT INTO ".toList ++ collectionName.toList ++ "\n        (".toList ++
    ", ".toList.intercalate (data.map fun d => d.1.toList) ++ ")\n        VALUES (".toList ++
    ", ".toList.intercalate (data.map fun d => '\'' :: (escapeString d.2 ++ ['\''])) ++
    ")\n      ".toList

/-- The statement of `update`; without a primary key there is no name. -/
def update (collectionName : String) (primaryKey : Option String) (data : Data) : List Char :=
  "\n        UPDATE ".toList ++ collectionName.toList ++ "\n        SET ".toList ++
    ",".toList.intercalate (data.map fun d => d.1.toList ++ "=?".toList) ++
    "\n        WHERE ".toList ++ (primaryKey.getD "").toList ++ "=?\n      ".toList

/-- The statement of `delete`. -/
def delete (collectionName : String) (primaryKey : Option String) : List Char :=
  "DELETE FROM ".toList ++ collectionName.toList ++ " WHERE ".toList ++
    (primaryKey.getD "").toList ++ "=?".toList

end Mysql

namespace Sqlite

/-- The statement of `create`. -/
def create (collectionName : String) (data : Data) : List Char :=
  "\n        INSERT INTO ".toList ++ collectionName.toList ++ "\n        (".toList ++
    ", ".toList.intercalate (data.map fun d => d.1.toList) ++ ")\n        VALUES (".toList ++
    ", ".toList.intercalate (data.map fun _ => ['?']) ++ ")\n      ".toList

/-- The statement of `update`. -/
def update (collectionName : String) (primaryKey : Option String) (data : Data) : List Char :=
  "\n        UPDATE ".toList ++ collectionName.toList ++ "\n        SET ".toList ++
    ",".toList.intercalate (data.map fun d => d.1.toList ++ "=?".toList) ++
    "\n        WHERE ".toList ++ (primaryKey.getD "").toList ++ "= ?\n      ".toList

/-- The statement of `delete`. -/
def delete (collectionName : String) (primaryKey : Option String) : List Char :=
  "DELETE FROM ".toList ++ collectionName.toList ++ " WHERE ".toList ++
    (primaryKey.getD "").toList ++ "=?".toList

end Sqlite

/-- The values of a row, as arguments. -/
def values (data : Data) : List (List Char) := data.map fun d => d.2.toList

/-! ### The servers -/

/-- The words a server has for itself. -/
structure Reserved where
  words : List Char → Bool
  where_mem : words "WHERE".toList = true

/-- A MySQL server: a backslash escapes, and a row may be all defaults. -/
def mysql (meaning : Char → Char) (r : Reserved) : Dialect where
  backslash := .escape meaning
  fold := id
  reserved := r.words
  where_reserved := r.where_mem
  emptyRow := true

/-- A SQLite database. -/
def sqlite (r : Reserved) : Dialect where
  backslash := .ordinary
  fold := id
  reserved := r.words
  where_reserved := r.where_mem
  emptyRow := false

/-- A PostgreSQL server: names without quotes are folded to small letters. -/
def postgres (r : Reserved) : Dialect where
  backslash := .ordinary
  fold := List.map Char.toLower
  reserved := r.words
  where_reserved := r.where_mem
  emptyRow := false

/-- What `escape_string` is for: between two quotes, the server reads the text. -/
def Escapes (meaning : Char → Char) (escapeString : String → List Char) : Prop :=
  ∀ s text, ¬ Continues text →
    read (.escape meaning) 0 (escapeString s ++ '\'' :: text) = some (s.toList, text)

/-! ### The pieces of a new row -/

variable {b : Backslash}

/-- What `create` writes around its fields and values. -/
def insertText (collectionName fields values : List Char) : List Char :=
  "\n        INSERT INTO ".toList ++ (collectionName ++ ("\n        (".toList ++ (fields ++
    (")\n        VALUES (".toList ++ (values ++ ")\n      ".toList)))))

theorem tokens_open (text : List Char) :
    tokens b ("\n        (".toList ++ text) = (tokens b text).map (.mark '(' :: ·) := by
  have hsplit : "\n        (".toList = "\n        ".toList ++ ['('] := by decide
  rw [hsplit, List.append_assoc, tokens_space (by decide)]
  exact tokens_mark (by decide) (by decide) (by decide) rfl

theorem tokens_values (text : List Char) : tokens b (")\n        VALUES (".toList ++ text) =
    (tokens b text).map fun ts => .mark ')' :: .word "VALUES".toList :: .mark '(' :: ts := by
  have hsplit : ")\n        VALUES (".toList =
      ')' :: ("\n        ".toList ++ ("VALUES".toList ++ (" ".toList ++ ['(']))) := by decide
  rw [hsplit]
  simp only [List.cons_append, List.append_assoc, List.nil_append]
  rw [tokens_mark (by decide) (by decide) (by decide) rfl,
    tokens_spaced (by decide) (by decide) (by decide) (by decide) (by decide),
    tokens_mark (by decide) (by decide) (by decide) rfl]
  simp only [Option.map_map, Function.comp_def]

theorem tokens_insertInto (text : List Char) :
    tokens b ("\n        INSERT INTO ".toList ++ text) =
      (tokens b text).map fun ts => .word "INSERT".toList :: .word "INTO".toList :: ts := by
  have hsplit : "\n        INSERT INTO ".toList = "\n        ".toList ++
      ("INSERT".toList ++ (" ".toList ++ ("INTO".toList ++ " ".toList))) := by decide
  have hinsert : ∀ text, tokens b ("\n        ".toList ++ ("INSERT".toList ++
      (" ".toList ++ text))) = (tokens b text).map (.word "INSERT".toList :: ·) :=
    tokens_spaced (by decide) (by decide) (by decide) (by decide) (by decide)
  have hinto : ∀ text, tokens b ("INTO".toList ++ (" ".toList ++ text)) =
      (tokens b text).map (.word "INTO".toList :: ·) :=
    @tokens_spaced b [] "INTO".toList rfl (by decide) (by decide) " ".toList (by decide)
      (by decide)
  rw [hsplit]
  simp only [List.append_assoc]
  rw [hinsert, hinto, Option.map_map]
  rfl

/-- What stands behind the name. -/
theorem ends_open (text : List Char) : Ends ("\n        (".toList ++ text) := by
  intro c hc
  obtain rfl := Option.some.inj hc
  rfl

/-- What stands behind the fields. -/
theorem closes_values (text : List Char) : Closes (")\n        VALUES (".toList ++ text) := by
  refine ⟨fun c hc => ?_, fun h => h.elim (fun h => nomatch h) fun h => nomatch h⟩
  obtain rfl := Option.some.inj hc
  rfl

/-- What stands behind the values. -/
theorem closes_end : Closes ")\n      ".toList := by
  refine ⟨fun c hc => ?_, fun h => h.elim (fun h => nomatch h) fun h => nomatch h⟩
  obtain rfl := Option.some.inj hc
  rfl

/-- What `create` writes around its fields and values is cut around their pieces. -/
theorem tokens_insertText {collectionName fields values : List Char} {F V : List Token}
    (hname : isName collectionName = true)
    (hfields : ∀ text, Closes text → tokens b (fields ++ text) = (tokens b text).map (F ++ ·))
    (hvalues : ∀ text, Closes text → tokens b (values ++ text) = (tokens b text).map (V ++ ·)) :
    tokens b (insertText collectionName fields values) =
      some (insertTokens collectionName F V) := by
  have hend : tokens b ")\n      ".toList = some [.mark ')'] := by
    have hsplit : ")\n      ".toList = ')' :: ("\n      ".toList ++ []) := by decide
    rw [hsplit, tokens_mark (by decide) (by decide) (by decide) rfl, tokens_space (by decide)]
    rfl
  obtain ⟨hword, hne⟩ := word_of_isName hname
  -- from the end to the front
  have hrow : tokens b (values ++ ")\n      ".toList) = some (V ++ [.mark ')']) :=
    (hvalues _ closes_end).trans (congrArg _ hend)
  have hbehind := (tokens_values (b := b) _).trans (congrArg _ hrow)
  have hlist := (hfields _ (closes_values _)).trans (congrArg _ hbehind)
  have hopen := (tokens_open (b := b) _).trans (congrArg _ hlist)
  have hall := (tokens_word hword hne (ends_open _)).trans (congrArg _ hopen)
  exact (tokens_insertInto _).trans (congrArg _ hall)

/-! ### The meaning of a new row -/

theorem closes_comma (text : List Char) : Closes (", ".toList ++ text) :=
  ⟨fun c hc => by obtain rfl := Option.some.inj hc; rfl,
    fun h => h.elim (fun h => nomatch h) fun h => nomatch h⟩

theorem tokens_comma (text : List Char) :
    tokens b (", ".toList ++ text) = (tokens b text).map (.mark ',' :: ·) := by
  have hsplit : ", ".toList = ',' :: [' '] := rfl
  have hspace := @tokens_space b [' '] (by decide) text
  rw [hsplit, List.cons_append, tokens_mark (by decide) (by decide) (by decide) rfl, hspace]

/-- The fields are cut name by name. -/
theorem tokens_fields {data : Data} (hdata : ∀ d ∈ data, isName d.1.toList = true)
    {text : List Char} (htext : Closes text) :
    tokens b (", ".toList.intercalate (data.map fun d => d.1.toList) ++ text) =
      (tokens b text).map (items (fun d => [.word d.1.toList]) data ++ ·) := by
  refine tokens_items (fun d hd t ht => ?_) closes_comma tokens_comma htext
  obtain ⟨hword, hne⟩ := word_of_isName (hdata d hd)
  exact tokens_word hword hne ht.1

/-- Literals are cut one by one, if they are read up to their ends. -/
theorem tokens_literals {literal value : String → List Char}
    (hread : ∀ s text, ¬ Continues text →
      read b 0 (literal s ++ '\'' :: text) = some (value s, text)) (data : Data)
    {text : List Char} (htext : Closes text) :
    tokens b (", ".toList.intercalate (data.map fun d => '\'' :: (literal d.2 ++ ['\''])) ++ text) =
      (tokens b text).map (items (fun d => [.text (value d.2)]) data ++ ·) := by
  refine tokens_items (fun d _ t ht => ?_) closes_comma tokens_comma htext
  have hsplit : '\'' :: (literal d.2 ++ ['\'']) ++ t = '\'' :: (literal d.2 ++ '\'' :: t) := by
    rw [List.cons_append, List.append_assoc, List.singleton_append]
  rw [hsplit]
  exact tokens_text (hread d.2 t ht.2)

/-- A new row, with its values as they are read; without a field, where one may be. -/
def inserted (d : Dialect) (collectionName : String) (data : Data)
    (value : String → List Char) : Option Statement :=
  if data = [] ∧ d.emptyRow = false then none
  else some (.insert (d.fold collectionName.toList) (data.map fun x => d.fold x.1.toList)
    (data.map fun x => .text (value x.2)))

/-- The pieces of a new row are read as it. -/
theorem parse_inserted {d : Dialect} {collectionName : String} {data : Data}
    (hname : d.Names collectionName.toList) (hdata : ∀ x ∈ data, d.Names x.1.toList)
    (value : String → List Char) :
    parse d (insertTokens collectionName.toList (items (fun x => [.word x.1.toList]) data)
      (items (fun x => [.text (value x.2)]) data)) = inserted d collectionName data value := by
  cases data with
  | nil =>
    rw [inserted, items, items, parse_insert_empty hname]
    cases d.emptyRow <;> rfl
  | cons x xs =>
    have hfields : ∀ w ∈ (x :: xs).map fun x => x.1.toList, d.Names w := by
      intro w hw
      obtain ⟨y, hy, rfl⟩ := List.mem_map.mp hw
      exact hdata y hy
    have hlength : ((x :: xs).map fun x => x.1.toList).length =
        ((x :: xs).map fun x => value x.2).length := by
      rw [List.length_map, List.length_map]
    have hread := parse_insert hname hfields hlength (by simp)
    rw [items_map, items_map, List.map_map, List.map_map] at hread
    rw [hread, inserted, if_neg fun h => absurd h.1 (List.cons_ne_nil x xs)]
    rfl

/-- A new row means what its pieces say, with its arguments. -/
theorem meaning_insertText {d : Dialect} {collectionName : String} {data : Data}
    (hname : d.Names collectionName.toList) (hdata : ∀ x ∈ data, d.Names x.1.toList)
    {values : List Char} {V : List Token} {value : String → List Char}
    {arguments : List (List Char)}
    (hvalues : ∀ text, Closes text →
      tokens d.backslash (values ++ text) = (tokens d.backslash text).map (V ++ ·))
    (hfill : fill V arguments = some (items (fun x => [.text (value x.2)]) data)) :
    meaning d (insertText collectionName.toList
      (", ".toList.intercalate (data.map fun x => x.1.toList)) values) arguments =
        inserted d collectionName data value := by
  have htokens := tokens_insertText hname.isName
    (fun text => tokens_fields (b := d.backslash) fun x hx => (hdata x hx).isName) hvalues
  have hfields : .mark '?' ∉ items (fun x => [Token.word x.1.toList]) data :=
    notMem_items (by decide) fun x _ => by simp
  rw [meaning, htokens]
  show (fill _ arguments).bind (parse d) = _
  rw [fill_insertTokens hfields hfill]
  exact parse_inserted hname hdata value

/-- The same with literals in the text. -/
theorem meaning_literals {d : Dialect} {collectionName : String} {data : Data}
    (hname : d.Names collectionName.toList) (hdata : ∀ x ∈ data, d.Names x.1.toList)
    {literal value : String → List Char}
    (hread : ∀ s text, ¬ Continues text →
      read d.backslash 0 (literal s ++ '\'' :: text) = some (value s, text)) :
    meaning d (insertText collectionName.toList
      (", ".toList.intercalate (data.map fun x => x.1.toList))
      (", ".toList.intercalate (data.map fun x => '\'' :: (literal x.2 ++ ['\''])))) [] =
        inserted d collectionName data value :=
  meaning_insertText hname hdata (fun text => tokens_literals hread data)
    (fill_plain (notMem_items (by decide) fun x _ => by simp))

section Create

variable {escapes : Char → Char} {r : Reserved} {collectionName : String} {data : Data}

theorem meaning_mysql_create {escapeString : String → List Char}
    (hescapes : Escapes escapes escapeString)
    (hname : (mysql escapes r).Names collectionName.toList)
    (hdata : ∀ x ∈ data, (mysql escapes r).Names x.1.toList) :
    meaning (mysql escapes r) (Mysql.create escapeString collectionName data) [] =
      inserted (mysql escapes r) collectionName data String.toList := by
  have htext : Mysql.create escapeString collectionName data = insertText collectionName.toList
      (", ".toList.intercalate (data.map fun x => x.1.toList))
      (", ".toList.intercalate (data.map fun x => '\'' :: (escapeString x.2 ++ ['\'']))) := by
    delta Mysql.create insertText
    simp only [List.append_assoc]
  exact (congrArg (fun t => meaning _ t []) htext).trans (meaning_literals hname hdata hescapes)

theorem meaning_postgres_create (hname : (postgres r).Names collectionName.toList)
    (hdata : ∀ x ∈ data, (postgres r).Names x.1.toList) :
    meaning (postgres r) (Postgres.create collectionName data) [] =
      inserted (postgres r) collectionName data fun s => doubled (· == '\\') s.toList := by
  have htext : Postgres.create collectionName data = insertText collectionName.toList
      (", ".toList.intercalate (data.map fun x => x.1.toList))
      (", ".toList.intercalate (data.map fun x => '\'' :: (Postgres.escape x.2 ++ ['\'']))) := by
    delta Postgres.create Postgres.quoted insertText
    simp only [List.append_assoc]
  refine (congrArg (fun t => meaning _ t []) htext).trans
    (meaning_literals hname hdata fun s text htext => ?_)
  rw [Postgres.escape_eq]
  exact read_doubled_quoted s.toList htext

theorem meaning_sqlite_create (hname : (sqlite r).Names collectionName.toList)
    (hdata : ∀ x ∈ data, (sqlite r).Names x.1.toList) :
    meaning (sqlite r) (Sqlite.create collectionName data) (values data) =
      inserted (sqlite r) collectionName data String.toList := by
  have htext : Sqlite.create collectionName data = insertText collectionName.toList
      (", ".toList.intercalate (data.map fun x => x.1.toList))
      (", ".toList.intercalate (data.map fun _ => ['?'])) := by
    delta Sqlite.create insertText
    simp only [List.append_assoc]
  have hvalues : values data = data.flatMap fun x => [x.2.toList] := by
    rw [values, ← List.flatMap_pure_eq_map]
    rfl
  rw [hvalues]
  refine (congrArg (fun t => meaning _ t _) htext).trans
    (@meaning_insertText _ _ _ hname hdata _ (items (fun _ => [.mark '?']) data) _ _
      (fun text htext => ?_) (fill_items fun x _ => rfl))
  refine tokens_items (fun x _ t ht => ?_) closes_comma tokens_comma htext
  exact tokens_mark (by decide) (by decide) (by decide) rfl

/-- Nothing in it is changed by folding. -/
def Small (s : String) : Prop := s.toList.map Char.toLower = s.toList

instance (s : String) : Decidable (Small s) :=
  inferInstanceAs (Decidable (s.toList.map Char.toLower = s.toList))

/-- **What the adapters write as a new row, and when it is the same one.**  MySQL's statement is
always read as the row, the others if it has a field, Postgres's with folded names and doubled
backslashes.  So MySQL and SQLite agree if there is a field; Postgres and SQLite if there is none,
or if all names are in small letters and no value has a backslash. -/
theorem create_agrees_iff {escapeString : String → List Char}
    (hescapes : Escapes escapes escapeString)
    (hname : isName collectionName.toList = true ∧ r.words collectionName.toList = false)
    (hdata : ∀ x ∈ data, isName x.1.toList = true ∧ r.words x.1.toList = false) :
    meaning (mysql escapes r) (Mysql.create escapeString collectionName data) [] =
        inserted (mysql escapes r) collectionName data String.toList ∧
      meaning (sqlite r) (Sqlite.create collectionName data) (values data) =
        inserted (sqlite r) collectionName data String.toList ∧
      meaning (postgres r) (Postgres.create collectionName data) [] =
        inserted (postgres r) collectionName data (fun s => doubled (· == '\\') s.toList) ∧
      (meaning (mysql escapes r) (Mysql.create escapeString collectionName data) [] =
        meaning (sqlite r) (Sqlite.create collectionName data) (values data) ↔ data ≠ []) ∧
      (meaning (postgres r) (Postgres.create collectionName data) [] =
        meaning (sqlite r) (Sqlite.create collectionName data) (values data) ↔
          data = [] ∨ Small collectionName ∧
            ∀ x ∈ data, Small x.1 ∧ '\\' ∉ x.2.toList) := by
  have hmysql := meaning_mysql_create hescapes ⟨hname.1, hname.2⟩
    fun x hx => ⟨(hdata x hx).1, (hdata x hx).2⟩
  have hpostgres := @meaning_postgres_create r collectionName data ⟨hname.1, hname.2⟩
    fun x hx => ⟨(hdata x hx).1, (hdata x hx).2⟩
  have hsqlite := @meaning_sqlite_create r collectionName data ⟨hname.1, hname.2⟩
    fun x hx => ⟨(hdata x hx).1, (hdata x hx).2⟩
  refine ⟨hmysql, hsqlite, hpostgres, ?_⟩
  rw [hmysql, hpostgres, hsqlite]
  cases data with
  | nil => exact ⟨iff_of_false (fun h => nomatch h) fun h => h rfl, iff_of_true rfl (Or.inl rfl)⟩
  | cons x xs =>
    have hsome : x :: xs ≠ [] := List.cons_ne_nil x xs
    refine ⟨iff_of_true rfl hsome, ?_⟩
    rw [or_iff_right hsome, inserted, inserted, if_neg fun h => hsome h.1,
      if_neg fun h => hsome h.1, Option.some.injEq, Statement.insert.injEq, List.map_inj_left,
      List.map_inj_left, ← forall₂_and]
    -- the names differ by their folding, the values by the backslashes
    refine and_congr Iff.rfl (forall₂_congr fun y _ => and_congr Iff.rfl ?_)
    rw [Value.text.injEq, doubled_eq_iff]
    constructor
    · intro hnone hmem
      exact absurd (hnone _ hmem) (by decide)
    · intro hnot c hc
      exact beq_eq_false_iff_ne.mpr fun heq => hnot (heq ▸ hc)

/-! ### A user with a quote and a line break in the name -/

/-- What the driver writes for a character. -/
def escapedChar (c : Char) : List Char :=
  if c = '\x00' then ['\\', '0'] else if c = '\n' then ['\\', 'n']
  else if c = '\r' then ['\\', 'r'] else if c = '\x1a' then ['\\', 'Z']
  else if c = '\\' ∨ c = '\'' ∨ c = '"' then ['\\', c] else [c]

/-- What the server reads for an escaped character. -/
def escapedMeaning (c : Char) : Char :=
  if c = '0' then '\x00' else if c = 'n' then '\n' else if c = 'r' then '\r'
  else if c = 'Z' then '\x1a' else if c = 't' then '\t' else if c = 'b' then '\x08' else c

theorem read_escapedChar (c : Char) (rest : List Char) :
    read (.escape escapedMeaning) 0 (escapedChar c ++ rest) =
      push c (read (.escape escapedMeaning) 0 rest) := by
  have hescaped : ∀ d, read (.escape escapedMeaning) 0 ('\\' :: d :: rest) =
      push (escapedMeaning d) (read (.escape escapedMeaning) 0 rest) := fun d => rfl
  unfold escapedChar
  split_ifs with h0 hn hr hZ hspecial
  · rw [h0]
    exact hescaped '0'
  · rw [hn]
    exact hescaped 'n'
  · rw [hr]
    exact hescaped 'r'
  · rw [hZ]
    exact hescaped 'Z'
  · rcases hspecial with rfl | rfl | rfl
    · exact hescaped '\\'
    · exact hescaped '\''
    · exact hescaped '"'
  · rw [not_or, not_or] at hspecial
    exact read_plain hspecial.2.1 (if_neg hspecial.1)

/-- `escape_string`, as the driver documents it. -/
def escapeString (s : String) : List Char := s.toList.flatMap escapedChar

theorem escapes_escapeString : Escapes escapedMeaning escapeString := by
  intro s text htext
  unfold escapeString
  induction s.toList with
  | nil => exact read_quote htext
  | cons c cs ih =>
    rw [List.flatMap_cons, List.append_assoc, read_escapedChar, ih]
    rfl

/-- The words of the statements themselves. -/
def fewWords : Reserved where
  words := (["INSERT", "UPDATE", "DELETE", "SET", "VALUES", "WHERE"].map String.toList).contains
  where_mem := by decide

theorem create_agrees_users :
    meaning (sqlite fewWords) (Sqlite.create "users" [("name", "O'Neill\n")])
        (values [("name", "O'Neill\n")]) =
        some (.insert "users".toList ["name".toList] [.text "O'Neill\n".toList]) ∧
      meaning (postgres fewWords) (Postgres.create "users" [("name", "O'Neill\n")]) [] =
        meaning (sqlite fewWords) (Sqlite.create "users" [("name", "O'Neill\n")])
          (values [("name", "O'Neill\n")]) := by
  obtain ⟨-, hsqlite, -, -, hpostgres⟩ := @create_agrees_iff escapedMeaning fewWords "users"
    [("name", "O'Neill\n")] _ escapes_escapeString (by decide) (by decide)
  exact ⟨hsqlite, hpostgres.mpr (Or.inr (by decide))⟩

end Create

/-! ### The pieces of a change -/

/-- The pieces of the key, if there is one. -/
def keyTokens (primaryKey : Option String) : List Token :=
  primaryKey.elim [] fun key => [.word key.toList]

/-- The condition of a prepared statement. -/
def preparedWhere (primaryKey : Option String) (value : Token) : List Token :=
  .word "WHERE".toList :: (keyTokens primaryKey ++ [.mark '=', value])

theorem ends_equals (text : List Char) : Ends ('=' :: text) := by
  intro c hc
  obtain rfl := Option.some.inj hc
  rfl

theorem tokens_equals (text : List Char) :
    tokens b ('=' :: text) = (tokens b text).map (.mark '=' :: ·) :=
  tokens_mark (by decide) (by decide) (by decide) rfl

theorem tokens_placeholder (text : List Char) :
    tokens b ('?' :: text) = (tokens b text).map (.mark '?' :: ·) :=
  tokens_mark (by decide) (by decide) (by decide) rfl

/-- The key and its placeholder, with space around it. -/
theorem tokens_preparedWhere {primaryKey : Option String}
    (hkey : ∀ key ∈ primaryKey, isName key.toList = true) {before after : List Char}
    (hbefore : before.all SqlStatement.isSpace = true)
    (hafter : after.all SqlStatement.isSpace = true) :
    tokens b ("WHERE ".toList ++ ((primaryKey.getD "").toList ++
      ('=' :: (before ++ '?' :: after)))) = some (preparedWhere primaryKey (.mark '?')) := by
  have hwhere : ∀ text, tokens b ("WHERE ".toList ++ text) =
      (tokens b text).map (.word "WHERE".toList :: ·) := fun text => by
    have hsplit : "WHERE ".toList = "WHERE".toList ++ " ".toList := by decide
    rw [hsplit, List.append_assoc]
    exact @tokens_spaced b [] "WHERE".toList rfl (by decide) (by decide) " ".toList (by decide)
      (by decide) text
  have hend : tokens b after = some [] := by
    have hspace := @tokens_space b after hafter []
    rwa [List.append_nil, tokens_nil] at hspace
  have hmark : tokens b ('=' :: (before ++ '?' :: after)) = some [.mark '=', .mark '?'] := by
    rw [tokens_equals, tokens_space hbefore, tokens_placeholder, hend]
    rfl
  have hnamed : tokens b ((primaryKey.getD "").toList ++ ('=' :: (before ++ '?' :: after))) =
      some (keyTokens primaryKey ++ [.mark '=', .mark '?']) := by
    cases primaryKey with
    | none => exact hmark
    | some key =>
      obtain ⟨hword, hne⟩ := word_of_isName (hkey key rfl)
      exact (tokens_word hword hne (ends_equals _)).trans (congrArg _ hmark)
  exact (hwhere _).trans (congrArg _ hnamed)

/-- The fields of a prepared `UPDATE`. -/
theorem tokens_preparedFields {data : Data} (hdata : ∀ d ∈ data, isName d.1.toList = true)
    (text : List Char) :
    tokens b (",".toList.intercalate (data.map fun d => d.1.toList ++ "=?".toList) ++ text) =
      (tokens b text).map (items (fun d => assignmentTokens d.1.toList (.mark '?')) data ++ ·) := by
  refine @tokens_items _ b (fun _ => True) _ _ _ _ (fun d hd t _ => ?_) (fun _ => trivial)
    (fun t => tokens_mark (by decide) (by decide) (by decide) rfl) _ trivial
  obtain ⟨hword, hne⟩ := word_of_isName (hdata d hd)
  have hmark : tokens b ("=?".toList ++ t) =
      (tokens b t).map fun ts => .mark '=' :: .mark '?' :: ts := by
    have hsplit : "=?".toList ++ t = '=' :: '?' :: t := rfl
    rw [hsplit, tokens_equals, tokens_placeholder, Option.map_map]
    rfl
  rw [List.append_assoc]
  refine (tokens_word hword hne (ends_equals _)).trans ?_
  refine (congrArg _ hmark).trans ?_
  rw [Option.map_map]
  rfl

/-- What `update` writes around its fields and its condition. -/
def updateText (collectionName fields condition : List Char) : List Char :=
  "\n        UPDATE ".toList ++ (collectionName ++ ("\n        SET ".toList ++ (fields ++
    ("\n        ".toList ++ condition))))

theorem tokens_updateText {collectionName fields condition : List Char} {F C : List Token}
    (hname : isName collectionName = true)
    (hfields : ∀ text, tokens b (fields ++ text) = (tokens b text).map (F ++ ·))
    (hcondition : tokens b condition = some C) :
    tokens b (updateText collectionName fields condition) =
      some (updateTokens collectionName F C) := by
  have hupdate : ∀ text, tokens b ("\n        UPDATE ".toList ++ text) =
      (tokens b text).map (.word "UPDATE".toList :: ·) := fun text => by
    have hsplit : "\n        UPDATE ".toList =
        "\n        ".toList ++ ("UPDATE".toList ++ " ".toList) := by decide
    rw [hsplit, List.append_assoc, List.append_assoc]
    exact tokens_spaced (by decide) (by decide) (by decide) (by decide) (by decide) text
  have hset : ∀ text, tokens b ("\n        SET ".toList ++ text) =
      (tokens b text).map (.word "SET".toList :: ·) := fun text => by
    have hsplit : "\n        SET ".toList =
        "\n        ".toList ++ ("SET".toList ++ " ".toList) := by decide
    rw [hsplit, List.append_assoc, List.append_assoc]
    exact tokens_spaced (by decide) (by decide) (by decide) (by decide) (by decide) text
  have hends : ∀ text, Ends ("\n        SET ".toList ++ text) := fun text c hc => by
    obtain rfl := Option.some.inj hc
    rfl
  obtain ⟨hword, hne⟩ := word_of_isName hname
  have hspace := (@tokens_space b "\n        ".toList (by decide) condition).trans hcondition
  have hlist := (hfields _).trans (congrArg _ hspace)
  have hrow := (hset _).trans (congrArg _ hlist)
  have hall := (tokens_word hword hne (hends _)).trans (congrArg _ hrow)
  exact (hupdate _).trans (congrArg _ hall)

theorem tokens_deleteText {collectionName condition : List Char} {C : List Token}
    (hname : isName collectionName = true) (hcondition : tokens b condition = some C) :
    tokens b ("DELETE FROM ".toList ++ (collectionName ++ (" ".toList ++ condition))) =
      some (deleteTokens collectionName C) := by
  have hdelete : ∀ text, tokens b ("DELETE ".toList ++ text) =
      (tokens b text).map (.word "DELETE".toList :: ·) := fun text => by
    have hsplit : "DELETE ".toList = "DELETE".toList ++ " ".toList := by decide
    rw [hsplit, List.append_assoc]
    exact @tokens_spaced b [] "DELETE".toList rfl (by decide) (by decide) " ".toList (by decide)
      (by decide) text
  have hfrom : ∀ text, tokens b ("FROM ".toList ++ text) =
      (tokens b text).map (.word "FROM".toList :: ·) := fun text => by
    have hsplit : "FROM ".toList = "FROM".toList ++ " ".toList := by decide
    rw [hsplit, List.append_assoc]
    exact @tokens_spaced b [] "FROM".toList rfl (by decide) (by decide) " ".toList (by decide)
      (by decide) text
  have hsplit : "DELETE FROM ".toList = "DELETE ".toList ++ "FROM ".toList := by decide
  obtain ⟨hword, hne⟩ := word_of_isName hname
  have hname := (@tokens_spaced b [] collectionName rfl hword hne " ".toList (by decide)
    (by decide) condition).trans (congrArg _ hcondition)
  have hall := (hfrom _).trans (congrArg _ hname)
  rw [hsplit, List.append_assoc]
  exact (hdelete _).trans (congrArg _ hall)

/-! ### The meaning of a change -/

/-- The change of a row, if there is a key and a field to change. -/
def updated (collectionName : String) (primaryKey : Option String) (id : String) (data : Data) :
    Option Statement :=
  if data = [] then none
  else primaryKey.map fun key => .update collectionName.toList
    (data.map fun x => (x.1.toList, .text x.2.toList)) key.toList (.text id.toList)

/-- The deletion of a row, if there is a key. -/
def deleted (collectionName : String) (primaryKey : Option String) (id : String) :
    Option Statement :=
  primaryKey.map fun key => .delete collectionName.toList key.toList (.text id.toList)

section Changes

variable {d : Dialect} {escapes : Char → Char} {r : Reserved} {collectionName : String}
  {primaryKey : Option String} {id : String} {data : Data}

theorem readWhere_prepared (hkey : ∀ key ∈ primaryKey, d.Names key.toList) (value : List Char) :
    readWhere d (preparedWhere primaryKey (.text value)) =
      primaryKey.map fun key => (d.fold key.toList, .text value) := by
  cases primaryKey with
  | none => exact readWhere_no_key _
  | some key => exact readWhere_self (hkey key rfl) rfl

theorem fill_prepared (primaryKey : Option String) (value : List Char) :
    fill (preparedWhere primaryKey (.mark '?')) [value] =
      some (preparedWhere primaryKey (.text value)) := by
  cases primaryKey <;> rfl

/-- A prepared change means what its pieces say, with its arguments. -/
theorem meaning_updateText (hfold : ∀ w, d.fold w = w) (hname : d.Names collectionName.toList)
    (hkey : ∀ key ∈ primaryKey, d.Names key.toList) (hdata : ∀ x ∈ data, d.Names x.1.toList)
    {condition : List Char}
    (hcondition : tokens d.backslash condition = some (preparedWhere primaryKey (.mark '?'))) :
    meaning d (updateText collectionName.toList
      (",".toList.intercalate (data.map fun x => x.1.toList ++ "=?".toList)) condition)
      (values data ++ [id.toList]) = updated collectionName primaryKey id data := by
  have htokens := tokens_updateText hname.isName
    (tokens_preparedFields (b := d.backslash) fun x hx => (hdata x hx).isName) hcondition
  have hvalues : values data = data.flatMap fun x => [x.2.toList] := by
    rw [values, ← List.flatMap_pure_eq_map]
    rfl
  have hfields : fill (items (fun x => assignmentTokens x.1.toList (.mark '?')) data)
      (data.flatMap fun x => [x.2.toList]) =
        some (items (fun x => assignmentTokens x.1.toList (.text x.2.toList)) data) :=
    fill_items fun x _ => rfl
  have hfill := @fill_updateTokens collectionName.toList _ _ _ _ _ _ hfields
    (fill_prepared primaryKey id.toList)
  rw [meaning, htokens, hvalues]
  show (fill _ _).bind (parse d) = _
  rw [hfill]
  show parse d _ = _
  cases data with
  | nil => exact parse_update_empty hname _
  | cons x xs =>
    have hnames : ∀ f ∈ (x :: xs).map fun x => (x.1.toList, x.2.toList), d.Names f.1 := by
      intro f hf
      obtain ⟨y, hy, rfl⟩ := List.mem_map.mp hf
      exact hdata y hy
    have hparse := parse_update hname hnames (by simp) "WHERE".toList
      (keyTokens primaryKey ++ [.mark '=', .text id.toList])
    have hwhere := readWhere_prepared hkey id.toList
    rw [preparedWhere] at hwhere
    rw [items_map, hwhere, List.map_map, Option.map_map] at hparse
    rw [preparedWhere, hparse, updated, if_neg (List.cons_ne_nil x xs)]
    simp only [Function.comp_def, hfold]

/-- A prepared deletion means what its pieces say, with its argument. -/
theorem meaning_deleteText (hfold : ∀ w, d.fold w = w) (hname : d.Names collectionName.toList)
    (hkey : ∀ key ∈ primaryKey, d.Names key.toList) {condition : List Char}
    (hcondition : tokens d.backslash condition = some (preparedWhere primaryKey (.mark '?'))) :
    meaning d ("DELETE FROM ".toList ++ (collectionName.toList ++ (" ".toList ++ condition)))
      [id.toList] = deleted collectionName primaryKey id := by
  have hfill := @fill_deleteTokens collectionName.toList _ _ _
    (fill_prepared primaryKey id.toList)
  rw [meaning, tokens_deleteText hname.isName hcondition]
  show (fill _ _).bind (parse d) = _
  rw [hfill]
  show parse d _ = _
  rw [parse_delete hname, readWhere_prepared hkey, Option.map_map, deleted]
  simp only [Function.comp_def, hfold]

theorem meaning_mysql_update (hfold : ∀ w, d.fold w = w) (hname : d.Names collectionName.toList)
    (hkey : ∀ key ∈ primaryKey, d.Names key.toList) (hdata : ∀ x ∈ data, d.Names x.1.toList) :
    meaning d (Mysql.update collectionName primaryKey data) (values data ++ [id.toList]) =
      updated collectionName primaryKey id data := by
  have hwhere : "\n        WHERE ".toList = "\n        ".toList ++ "WHERE ".toList := by decide
  have hend : "=?\n      ".toList = '=' :: ([] ++ '?' :: "\n      ".toList) := by decide
  have htext : Mysql.update collectionName primaryKey data = updateText collectionName.toList
      (",".toList.intercalate (data.map fun x => x.1.toList ++ "=?".toList))
      ("WHERE ".toList ++ ((primaryKey.getD "").toList ++ ('=' :: ([] ++ '?' ::
        "\n      ".toList)))) := by
    delta Mysql.update updateText
    rw [hwhere, hend]
    simp only [List.append_assoc]
  exact (congrArg (fun t => meaning d t _) htext).trans
    (meaning_updateText hfold hname hkey hdata
      (tokens_preparedWhere (fun key hk => (hkey key hk).isName) rfl (by decide)))

theorem meaning_sqlite_update (hfold : ∀ w, d.fold w = w) (hname : d.Names collectionName.toList)
    (hkey : ∀ key ∈ primaryKey, d.Names key.toList) (hdata : ∀ x ∈ data, d.Names x.1.toList) :
    meaning d (Sqlite.update collectionName primaryKey data) (values data ++ [id.toList]) =
      updated collectionName primaryKey id data := by
  have hwhere : "\n        WHERE ".toList = "\n        ".toList ++ "WHERE ".toList := by decide
  have hend : "= ?\n      ".toList = '=' :: (" ".toList ++ '?' :: "\n      ".toList) := by decide
  have htext : Sqlite.update collectionName primaryKey data = updateText collectionName.toList
      (",".toList.intercalate (data.map fun x => x.1.toList ++ "=?".toList))
      ("WHERE ".toList ++ ((primaryKey.getD "").toList ++ ('=' :: (" ".toList ++ '?' ::
        "\n      ".toList)))) := by
    delta Sqlite.update updateText
    rw [hwhere, hend]
    simp only [List.append_assoc]
  exact (congrArg (fun t => meaning d t _) htext).trans
    (meaning_updateText hfold hname hkey hdata
      (tokens_preparedWhere (fun key hk => (hkey key hk).isName) (by decide) (by decide)))

/-- The two adapters delete with one text. -/
theorem meaning_delete (hfold : ∀ w, d.fold w = w) (hname : d.Names collectionName.toList)
    (hkey : ∀ key ∈ primaryKey, d.Names key.toList) :
    meaning d (Mysql.delete collectionName primaryKey) [id.toList] =
      deleted collectionName primaryKey id := by
  have hwhere : " WHERE ".toList = " ".toList ++ "WHERE ".toList := by decide
  have hend : "=?".toList = '=' :: ([] ++ '?' :: []) := by decide
  have htext : Mysql.delete collectionName primaryKey = "DELETE FROM ".toList ++
      (collectionName.toList ++ (" ".toList ++ ("WHERE ".toList ++ ((primaryKey.getD "").toList ++
        ('=' :: ([] ++ '?' :: [])))))) := by
    delta Mysql.delete
    rw [hwhere, hend]
    simp only [List.append_assoc]
  exact (congrArg (fun t => meaning d t _) htext).trans
    (meaning_deleteText hfold hname hkey
      (tokens_preparedWhere (fun key hk => (hkey key hk).isName) rfl rfl))

end Changes

end BkPlatform.Labrador
