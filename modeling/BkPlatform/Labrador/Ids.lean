import BkPlatform.Labrador.Postgres
import Mathlib.Data.Int.Notation

/-!
# The id in a statement of the Postgres adapter

`update` and `delete` put the id of a request into the statement as it is, as a piece of SQL, and
so they do with the names of the table, its key and the fields.  A number is a constant there,
and is compared with the key.  A word is the name of a column, a text between quotes is the text
without them, and anything else is what the server makes of it.  So the rows of a statement are
those with the id as their key where the key is a number and the id is one as it is displayed; a
key that is a text is never compared with the id itself.

A statement is read where its names are words that stand for themselves and its id is a constant
or a word.  What it does otherwise is a parameter, as are the words that are reserved, and
whether the server carries out what it has read: values may not suit their columns, and a
constraint may be violated.

## Main definitions

* `KeyedTable`, `Server` — a table, and what the server makes of other SQL.
* `Server.named`, `Server.setting`, `Server.compared` — how the parts of a statement are read.
* `Server.meaning` — what the statement says.
* `Server.selects`, `Respects` — the rows a statement applies to.
* `Safe` — the condition on the id and the table.

## Main results

* `safe_displayed` — a number as it is displayed is safe.
* `shown_ne_of_text` — what a text is compared with is never the id.
* `respects_iff` — **exactly when a statement that is read applies to the row with the id.**
-/

namespace BkPlatform.Labrador.Postgres

open SqlLiteral

/-! ### Tables -/

/-- A type of keys. -/
inductive SqlType
  | integer
  | text
  deriving DecidableEq, Repr

/-- A value of such a type. -/
inductive Value
  | integer (n : ℤ)
  | text (s : String)
  deriving DecidableEq, Repr

def Value.type : Value → SqlType
  | integer _ => .integer
  | text _ => .text

/-- A value as it is displayed. -/
def Value.shown : Value → String
  | integer n => toString n
  | text s => s

/-- A row: its key, and what it has in its columns, if that is a value of one of the types. -/
structure Row where
  key : Value
  cells : List (String × Option Value)
  deriving DecidableEq, Repr

/-- A table with a primary key; a column may have yet another type. -/
structure KeyedTable where
  name : String
  primaryKey : String
  type : SqlType
  columns : List (String × Option SqlType)
  rows : List Row
  column : columns.lookup primaryKey = some (some type)
  typed : ∀ row ∈ rows, row.key.type = type
  keyed : ∀ row ∈ rows, row.cells.lookup primaryKey = some (some row.key)

/-! ### What the server reads -/

/-- What the server makes of SQL. -/
structure Server where
  backslash : Backslash
  /-- Words that stand for something other than a table or one of the columns it was given. -/
  reserved : String → Bool
  /-- A statement that has been read is carried out. -/
  accepts : KeyedTable → List Char → Bool
  /-- The rows that any other statement applies to. -/
  other : KeyedTable → List Char → Row → Bool

/-- An id that is a constant or a word. -/
inductive Constant
  | integer (n : ℤ)
  | text (s : String)
  | word (w : String)
  deriving DecidableEq, Repr

/-- Digits. -/
def readDigits (cs : List Char) : Option ℕ :=
  if cs ≠ [] ∧ cs.all Char.isDigit then some (Nat.ofDigitChars 10 cs 0) else none

/-- Digits, with a sign or without. -/
def readInteger : List Char → Option ℤ
  | '-' :: cs => (readDigits cs).map fun n => -(n : ℤ)
  | cs => (readDigits cs).map fun n => (n : ℤ)

/-- What is between two quotes, if that is all there is. -/
def readText (b : Backslash) : List Char → Option String
  | '\'' :: cs =>
    match read b 0 cs with
    | some (value, []) => some (String.ofList value)
    | _ => none
  | _ => none

def isLetter (c : Char) : Bool := c.isAlpha || c == '_'

/-- A name without quotes, which is folded to small letters. -/
def readWord : List Char → Option String
  | c :: cs =>
    if isLetter c ∧ cs.all fun c => isLetter c || c.isDigit || c == '$' then
      some (String.ofList ((c :: cs).map Char.toLower))
    else none
  | [] => none

def readConstant (b : Backslash) (id : List Char) : Option Constant :=
  ((readInteger id).map Constant.integer).or
    (((readText b id).map Constant.text).or ((readWord id).map Constant.word))

/-- The two statements with an id. -/
inductive Sent
  | delete
  | update (data : Data)
  deriving DecidableEq, Repr

/-- The statement that is sent. -/
def Sent.statement (r : Sent) (t : KeyedTable) (id : String) : List Char :=
  match r with
  | delete => Postgres.delete t.name (some t.primaryKey) id
  | update data => Postgres.update t.name (some t.primaryKey) id data

/-- A name that stands for itself. -/
def Server.plain (server : Server) (name : String) : Bool :=
  readWord name.toList == some name && !server.reserved name

/-- The table and its key are what the statement names. -/
def Server.named (server : Server) (t : KeyedTable) : Bool :=
  server.plain t.name && server.plain t.primaryKey

/-- How a part of a statement is read. -/
inductive Reading
  | valid
  | refused
  | other
  deriving DecidableEq, Repr

/-- The fields after `SET`.  There is one at least, no two are the same, and each is a column. -/
def Server.setting (server : Server) (t : KeyedTable) : Sent → Reading
  | .delete => .valid
  | .update data =>
    match data.mapM fun d => readWord d.1.toList with
    | some fields =>
      if fields ≠ [] ∧ fields.Nodup ∧
        ∀ w ∈ fields, server.reserved w = false ∧ (t.columns.lookup w).isSome then .valid
      else .refused
    | none => .other

/-- What the key is compared with. -/
inductive Meaning
  | equals (v : Value)
  | column (name : String)
  /-- The statement is refused. -/
  | refused
  | other
  deriving DecidableEq, Repr

/-- `#{primary_key_name}=#{id}` as the server reads it.  A number is not compared with a text;
a text between quotes is converted to the type of the key. -/
def Server.compared (server : Server) (t : KeyedTable) (id : String) : Meaning :=
  match readConstant server.backslash id.toList with
  | some (.integer n) =>
    match t.type with
    | .integer => .equals (.integer n)
    | .text => .refused
  | some (.text s) =>
    match t.type with
    | .integer =>
      match readInteger s.toList with
      | some n => .equals (.integer n)
      | none => .other
    | .text => .equals (.text s)
  | some (.word w) =>
    if server.reserved w then .other
    else
      match t.columns.lookup w with
      | some (some type) => if type = t.type then .column w else .refused
      | some none => .other
      | none => .refused
  | none => .other

/-- What the whole statement says: its names, its fields and its id. -/
def Server.meaning (server : Server) (t : KeyedTable) (id : String) (r : Sent) : Meaning :=
  if server.named t then
    match server.setting t r, server.compared t id with
    | .other, _ => .other
    | _, .other => .other
    | .refused, _ => .refused
    | .valid, compared => if server.accepts t (r.statement t id) then compared else .refused
  else .other

/-- The statement applies to the row. -/
def Server.selects (server : Server) (t : KeyedTable) (id : String) (r : Sent) (row : Row) :
    Bool :=
  match server.meaning t id r with
  | .equals v => row.key == v
  | .column w => row.cells.lookup w == some (some row.key)
  | .refused => false
  | .other => server.other t (r.statement t id) row

/-- **The statement respects the id**: it applies to the rows with the id as their key, and to
no others. -/
def Respects (server : Server) (t : KeyedTable) (id : String) (r : Sent) : Prop :=
  ∀ row ∈ t.rows, server.selects t id r row = true ↔ row.key.shown = id

instance (server : Server) (t : KeyedTable) (id : String) (r : Sent) :
    Decidable (Respects server t id r) :=
  inferInstanceAs (Decidable (∀ row ∈ t.rows, _ ↔ _))

/-- The condition on the statement and the table: the id is displayed like the value it stands
for, or no row has either as its key; a word names a column whose value is the key in the rows
with the id only; where the statement is refused there is no such row; and where it is not read
there is no row at all. -/
def Safe (server : Server) (t : KeyedTable) (id : String) (r : Sent) : Prop :=
  match server.meaning t id r with
  | .equals v => v.shown = id ∨ ∀ row ∈ t.rows, row.key ≠ v ∧ row.key.shown ≠ id
  | .column w => ∀ row ∈ t.rows, row.cells.lookup w = some (some row.key) ↔ row.key.shown = id
  | .refused => ∀ row ∈ t.rows, row.key.shown ≠ id
  | .other => t.rows = []

/-! ### Numbers as they are displayed -/

theorem readDigits_toDigits (n : ℕ) : readDigits (Nat.toDigits 10 n) = some n := by
  have hall : (Nat.toDigits 10 n).all Char.isDigit = true :=
    List.all_eq_true.mpr fun _ hc => Nat.isDigit_of_mem_toDigits (by decide) (by decide) hc
  rw [readDigits, if_pos ⟨Nat.toDigits_ne_nil, hall⟩, Nat.ofDigitChars_ten_toDigits]

/-- A number is read as it is displayed. -/
theorem readInteger_toString (n : ℤ) : readInteger (toString n).toList = some n := by
  cases n with
  | ofNat n =>
    have hlist : (toString (Int.ofNat n)).toList = Nat.toDigits 10 n := Nat.toList_repr
    rw [hlist]
    cases hdigits : Nat.toDigits 10 n with
    | nil => exact absurd hdigits Nat.toDigits_ne_nil
    | cons c cs =>
      have hc : c.isDigit = true :=
        Nat.isDigit_of_mem_toDigits (by decide) (by decide) (hdigits ▸ List.mem_cons_self)
      have hsign : c ≠ '-' := by
        rintro rfl
        exact absurd hc (by decide)
      rw [readInteger.eq_2 _ fun rest h => hsign (List.cons.inj h).1, ← hdigits,
        readDigits_toDigits]
      rfl
  | negSucc n =>
    have hlist : (toString (Int.negSucc n)).toList = '-' :: Nat.toDigits 10 (n + 1) := by
      have hstring : toString (Int.negSucc n) = "-" ++ (n + 1).repr := rfl
      rw [hstring, String.toList_append, Nat.toList_repr]
      rfl
    rw [hlist, readInteger, readDigits_toDigits]
    rfl

/-- Two values of one type are displayed differently. -/
theorem shown_inj {v w : Value} (htype : v.type = w.type) : v.shown = w.shown ↔ v = w := by
  refine ⟨fun h => ?_, fun h => h ▸ rfl⟩
  cases v with
  | integer n =>
    cases w with
    | integer m =>
      have hread : some n = some m := by
        rw [← readInteger_toString n, ← readInteger_toString m]
        exact congrArg (fun s : String => readInteger s.toList) h
      rw [Option.some.inj hread]
    | text s => cases htype
  | text s =>
    cases w with
    | integer m => cases htype
    | text s' => exact congrArg Value.text h

/-! ### What a statement applies to -/

variable {server : Server} {t : KeyedTable} {id : String} {r : Sent}

/-- What a statement says is what its id is compared with, if it says anything. -/
theorem compared_of_meaning {v : Value} (h : server.meaning t id r = .equals v) :
    server.compared t id = .equals v := by
  unfold Server.meaning at h
  split at h
  · split at h
    · cases h
    · cases h
    · cases h
    · split at h
      · exact h
      · cases h
  · cases h

/-- The key is compared with values of its type. -/
theorem type_of_compared {v : Value} (h : server.compared t id = .equals v) : v.type = t.type := by
  unfold Server.compared at h
  split at h
  · split at h
    · next htype =>
      rw [htype, ← Meaning.equals.inj h]
      rfl
    · cases h
  · split at h
    · next htype =>
      split at h
      · rw [htype, ← Meaning.equals.inj h]
        rfl
      · cases h
    · next htype =>
      rw [htype, ← Meaning.equals.inj h]
      rfl
  · split at h
    · cases h
    · split at h
      · split at h <;> cases h
      · cases h
      · cases h
  · cases h

/-- A number is compared with keys that are numbers. -/
theorem compared_of_readInteger (htype : t.type = .integer) {n : ℤ}
    (h : readInteger id.toList = some n) : server.compared t id = .equals (.integer n) := by
  rw [Server.compared, readConstant, h, Option.map_some, Option.some_or, htype]

/-- **Exactly when a statement respects the id**, where the statement is read; and where it is not,
a table without rows will do. -/
theorem respects_iff (server : Server) (t : KeyedTable) (id : String) (r : Sent) :
    (server.meaning t id r ≠ .other → (Respects server t id r ↔ Safe server t id r)) ∧
      (Safe server t id r → Respects server t id r) := by
  unfold Respects Safe Server.selects
  cases hmeaning : server.meaning t id r with
  | equals v =>
    have htype := type_of_compared (compared_of_meaning hmeaning)
    have hiff : (∀ row ∈ t.rows, (row.key == v) = true ↔ row.key.shown = id) ↔
        v.shown = id ∨ ∀ row ∈ t.rows, row.key ≠ v ∧ row.key.shown ≠ id := by
      simp only [beq_iff_eq]
      constructor
      · intro h
        -- a row with the value as its key is affected, but is not displayed as the id
        refine or_iff_not_imp_left.mpr fun hshown row hrow => ?_
        have hkey : row.key ≠ v := fun heq => hshown (heq ▸ (h row hrow).mp heq)
        exact ⟨hkey, fun hid => hkey ((h row hrow).mpr hid)⟩
      · rintro (rfl | hnone) row hrow
        · exact (shown_inj ((t.typed row hrow).trans htype.symm)).symm
        · exact iff_of_false (hnone row hrow).1 (hnone row hrow).2
    exact ⟨fun _ => hiff, hiff.mpr⟩
  | column w => simp
  | refused => simp
  | other => simp +contextual

/-- A number as it is displayed is safe where the key is a number, in a statement that is read and
carried out. -/
theorem safe_displayed (htype : t.type = .integer) (n : ℤ) (hnamed : server.named t = true)
    (hsetting : server.setting t r = .valid)
    (haccepts : server.accepts t (r.statement t (toString n)) = true) :
    Safe server t (toString n) r := by
  have hcompared : server.compared t (toString n) = .equals (.integer n) :=
    compared_of_readInteger htype (readInteger_toString n)
  have hmeaning : server.meaning t (toString n) r = .equals (.integer n) := by
    rw [Server.meaning, if_pos hnamed, hsetting, hcompared]
    exact if_pos haccepts
  rw [Safe, hmeaning]
  exact Or.inl rfl

theorem readText_of_readConstant {b : Backslash} {cs : List Char} {s : String}
    (h : readConstant b cs = some (.text s)) : readText b cs = some s := by
  rw [readConstant, Option.or_eq_some_iff, Option.or_eq_some_iff] at h
  obtain h | ⟨-, h | ⟨-, h⟩⟩ := h
  · obtain ⟨n, -, hn⟩ := Option.map_eq_some_iff.mp h
    cases hn
  · obtain ⟨s', hs, heq⟩ := Option.map_eq_some_iff.mp h
    cases heq
    exact hs
  · obtain ⟨w, -, hw⟩ := Option.map_eq_some_iff.mp h
    cases hw

/-- A text is shorter than it is between its quotes. -/
theorem ne_of_readText {b : Backslash} {s : String} (h : readText b id.toList = some s) :
    s ≠ id := by
  rintro rfl
  unfold readText at h
  split at h
  · next cs hid =>
    split at h
    · next value hread =>
      have hlength := length_add_of_read hread
      rw [← Option.some.inj h, String.toList_ofList] at hid
      rw [hid, List.length_cons] at hlength
      omega
    · cases h
  · cases h

/-- Where the key is a text, what it is compared with is never the id: quotes are missing. -/
theorem shown_ne_of_text (htype : t.type = .text) {v : Value}
    (hmeaning : server.meaning t id r = .equals v) : v.shown ≠ id := by
  have h := compared_of_meaning hmeaning
  unfold Server.compared at h
  split at h
  · rw [htype] at h
    cases h
  · next s hconstant =>
    rw [htype] at h
    rw [← Meaning.equals.inj h]
    exact ne_of_readText (readText_of_readConstant hconstant)
  · split at h
    · cases h
    · split at h
      · split at h <;> cases h
      · cases h
      · cases h
  · cases h

/-- Integer literals as the server reads them, and nothing else. -/
def plainServer : Server where
  backslash := .ordinary
  reserved := fun _ => false
  accepts := fun _ _ => true
  other := fun _ _ _ => false

/-- Lots by their numbers, which are texts. -/
def lots : KeyedTable where
  name := "lots"
  primaryKey := "number"
  type := .text
  columns := [("number", some .text), ("place", some .text)]
  rows := [⟨.text "42", [("number", some (.text "42")), ("place", some (.text "A7"))]⟩,
    ⟨.text "43", [("number", some (.text "43")), ("place", some (.text "43"))]⟩]
  column := by decide
  typed := by decide
  keyed := by decide

/-- The lot `42` is not deleted, as a text is not compared with a number; and the id `place`
deletes the lot `43`. -/
theorem not_respects_lots : ¬ Respects plainServer lots "42" .delete ∧
    ¬ Respects plainServer lots "place" .delete := by
  decide

end BkPlatform.Labrador.Postgres
