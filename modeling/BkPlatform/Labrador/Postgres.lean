import BkPlatform.Lib.Pieces
import BkPlatform.Lib.SqlLiteral

/-!
# The statements of the Postgres adapter

`create` and `update` put the values into the statement, between quotes and escaped: backslashes
and quotes are doubled.  No value leaves its literal, however the server reads backslashes.  But
a server that takes a backslash for a character as any other, as servers do by default, stores
both of each pair.

## Main definitions

* `escape`, `create`, `update`, `delete` — the statements.
* `Writes` — a statement with the literal of a value, and the text behind it.

## Main results

* `escape_ends_iff` — **a value is read up to its closing quote.**
* `readsBack_iff` — **exactly when a value is read as it was.**
-/

namespace BkPlatform.Labrador.Postgres

open SqlLiteral

/-! ### The statements -/

/-- `escape`. -/
def escape (s : String) : List Char :=
  doubled (fun c => c == '\'') (doubled (fun c => c == '\\') s.toList)

/-- `'#{escape(val)}'`. -/
def quoted (s : String) : List Char := '\'' :: (escape s ++ ['\''])

/-- The fields and their values. -/
abbrev Data := List (String × String)

/-- The statement of `create`. -/
def create (collectionName : String) (data : Data) : List Char :=
  "\n        INSERT INTO ".toList ++ collectionName.toList ++ "\n        (".toList ++
    ", ".toList.intercalate (data.map fun d => d.1.toList) ++ ")\n        VALUES (".toList ++
    ", ".toList.intercalate (data.map fun d => quoted d.2) ++ ")\n      ".toList

/-- `#{key}='#{escape(val.to_s)}'`. -/
def assignment (d : String × String) : List Char := d.1.toList ++ '=' :: quoted d.2

/-- `WHERE #{primary_key_name}=#{id}`; without a primary key there is no name. -/
def whereId (primaryKey : Option String) (id : String) : List Char :=
  "WHERE ".toList ++ (primaryKey.getD "").toList ++ '=' :: id.toList

/-- The statement of `update`. -/
def update (collectionName : String) (primaryKey : Option String) (id : String) (data : Data) :
    List Char :=
  "\n        UPDATE ".toList ++ collectionName.toList ++ "\n        SET ".toList ++
    ",".toList.intercalate (data.map assignment) ++ "\n        ".toList ++
    whereId primaryKey id ++ "\n      ".toList

/-- The statement of `delete`. -/
def delete (collectionName : String) (primaryKey : Option String) (id : String) : List Char :=
  "DELETE FROM ".toList ++ collectionName.toList ++ ' ' :: whereId primaryKey id

/-! ### Where a value is written -/

/-- What comes behind a value in `create`. -/
def createBehind (after : Data) : List Char :=
  (after.flatMap fun d => ", ".toList ++ quoted d.2) ++ ")\n      ".toList

/-- What comes behind a value in `update`. -/
def updateBehind (primaryKey : Option String) (id : String) (after : Data) : List Char :=
  (after.flatMap fun d => ",".toList ++ assignment d) ++ "\n        ".toList ++
    whereId primaryKey id ++ "\n      ".toList

/-- The value is written into the statement; the text is what comes behind its literal. -/
inductive Writes (s : String) : List Char → List Char → Prop
  | create (collectionName key : String) (before after : Data) :
      Writes s (create collectionName (before ++ (key, s) :: after)) (createBehind after)
  | update (collectionName key : String) (primaryKey : Option String) (id : String)
      (before after : Data) :
      Writes s (update collectionName primaryKey id (before ++ (key, s) :: after))
        (updateBehind primaryKey id after)

variable {s : String} {statement text : List Char}

/-- The values of a statement, with what comes in front of one of them and behind it. -/
theorem intercalate_values (between : List Char) (f : String × String → List Char)
    (before after : Data) (d : String × String) :
    between.intercalate ((before ++ d :: after).map f) =
      (before.flatMap fun d => f d ++ between) ++
        (f d ++ after.flatMap fun d => between ++ f d) := by
  rw [List.map_append, List.map_cons, Pieces.intercalate_append_cons, List.flatMap_map,
    List.flatMap_map]

/-- The literal stands in the statement, in front of the text. -/
theorem Writes.split (h : Writes s statement text) :
    ∃ front, statement = front ++ '\'' :: (escape s ++ '\'' :: text) := by
  cases h with
  | create collectionName key before after =>
    delta Postgres.create createBehind
    rw [intercalate_values _ fun d => quoted d.2, quoted]
    refine ⟨"\n        INSERT INTO ".toList ++ collectionName.toList ++ "\n        (".toList ++
      ", ".toList.intercalate ((before ++ (key, s) :: after).map fun d => d.1.toList) ++
      ")\n        VALUES (".toList ++ before.flatMap fun d => quoted d.2 ++ ", ".toList, ?_⟩
    simp only [List.append_assoc, List.cons_append, List.nil_append]
  | update collectionName key primaryKey id before after =>
    delta Postgres.update updateBehind
    rw [intercalate_values, assignment, quoted]
    refine ⟨"\n        UPDATE ".toList ++ collectionName.toList ++ "\n        SET ".toList ++
      (before.flatMap fun d => assignment d ++ ",".toList) ++ key.toList ++ ['='], ?_⟩
    simp only [List.append_assoc, List.cons_append, List.nil_append]

/-- What comes behind a value does not continue its literal. -/
theorem Writes.not_continues (h : Writes s statement text) : ¬ Continues text := by
  cases h with
  | create collectionName key before after =>
    cases after with
    | nil => decide
    | cons d after => exact fun h => h.elim (fun h => nomatch h) fun h => nomatch h
  | update collectionName key primaryKey id before after =>
    cases after with
    | nil => exact fun h => h.elim (fun h => nomatch h) fun h => nomatch h
    | cons d after => exact fun h => h.elim (fun h => nomatch h) fun h => nomatch h

/-! ### How a value is read -/

theorem escape_eq (s : String) : escape s = doubled isSpecial s.toList :=
  doubled_doubled (fun c hc => by rw [beq_iff_eq.mp hc]; rfl) _

/-- **An escaped value is read up to its closing quote**, whatever a backslash is, exactly if
what follows does not continue the literal; and nothing that follows it in a statement does. -/
theorem escape_ends_iff (b : Backslash) (s : String) :
    (∀ text, (∃ value, read b 0 (escape s ++ '\'' :: text) = some (value, text)) ↔
        ¬ Continues text) ∧
      ∀ statement text, Writes s statement text →
        ∃ front value, statement = front ++ '\'' :: (escape s ++ '\'' :: text) ∧
          read b 0 (escape s ++ '\'' :: text) = some (value, text) := by
  rw [escape_eq]
  refine ⟨fun text => ends_iff, fun statement text h => ?_⟩
  obtain ⟨front, hfront⟩ := h.split
  obtain ⟨value, hvalue⟩ := (ends_iff (b := b) (s := s.toList)).mpr h.not_continues
  exact ⟨front, value, escape_eq s ▸ hfront, hvalue⟩

/-- A quote behind a value, or one in the next line, continues its literal. -/
theorem escape_continued :
    (¬ ∃ value, read .ordinary 0 (escape "it's" ++ '\'' :: "'x'".toList) =
        some (value, "'x'".toList)) ∧
      ¬ ∃ value, read .ordinary 0 (escape "it's" ++ '\'' :: "\n'x'".toList) =
        some (value, "\n'x'".toList) := by
  rw [escape_eq, ends_iff, ends_iff]
  decide

/-- **Exactly when a value is read as it was**, by a server that takes a backslash for a
character as any other: if it has no backslash. -/
theorem readsBack_iff (h : Writes s statement text) :
    read .ordinary 0 (escape s ++ '\'' :: text) = some (s.toList, text) ↔ '\\' ∉ s.toList := by
  rw [escape_eq, read_doubled_quoted _ h.not_continues, Option.some.injEq, Prod.mk.injEq,
    and_iff_left rfl, readAs, doubled_eq_iff]
  constructor
  · intro hnone hmem
    exact absurd (hnone _ hmem) (by decide)
  · intro hnot c hc
    exact beq_eq_false_iff_ne.mpr fun heq => hnot (heq ▸ hc)

/-- A name with a quote. -/
theorem readsBack_name :
    read .ordinary 0 (escape "O'Neill" ++ '\'' :: createBehind [("age", "20")]) =
      some ("O'Neill".toList, createBehind [("age", "20")]) :=
  (readsBack_iff (Writes.create "users" "name" [] [("age", "20")])).mpr (by decide)

/-- A path with backslashes. -/
theorem not_readsBack_path :
    read .ordinary 0 (escape "C:\\tmp" ++ '\'' :: createBehind []) ≠
      some ("C:\\tmp".toList, createBehind []) := by
  decide

end BkPlatform.Labrador.Postgres
