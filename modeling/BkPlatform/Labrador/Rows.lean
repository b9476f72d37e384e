import BkPlatform.Lib.Selection

/-!
# Addressing a row

The MySQL and the SQLite adapters address a row by one column.  For MySQL it is the first column
of the first index that is listed, for SQLite the first column of the table that belongs to the
primary key.  `update` and `delete` apply to every row the server finds to have the same value in
it, and are refused where there is no such column; a row without a value in it is never found.

How the server compares a stored value with a displayed one, and what it makes of assignments,
are parameters.

## Main definitions

* `Row`, `cell`, `Layout`, `primaryKeyFor` — tables, and the column.
* `Server`, `delete`, `update` — the statements.
* `TouchesOnly` — both touch one row only.

## Main results

* `touchesOnly_iff` — **exactly when only that row is touched.**
* `touchesOnly_of_key` — it is where the column is a key.
-/

namespace BkPlatform.Labrador.Rows

open Selection

variable {V : Type*}

/-! ### Tables -/

/-- A row: its columns, and what they hold, if that is not NULL. -/
abbrev Row (V : Type*) := List (String × Option V)

/-- `row[column]`. -/
def cell (row : Row V) (column : String) : Option V := (row.lookup column).join

/-- What an adapter asks of a table. -/
inductive Layout
  /-- The columns of the primary key, if there is one, and of the other indexes, which may have
  an expression in place of a column. -/
  | mysql (primaryKey : List String) (indexes : List (List (Option String)))
  /-- The columns, and whether they belong to the primary key. -/
  | sqlite (columns : List (String × Bool))
  deriving DecidableEq, Repr

/-- `Column_name` of the rows of `SHOW INDEX`: the primary key comes first. -/
def showIndex (primaryKey : List String) (indexes : List (List (Option String))) :
    List (Option String) :=
  primaryKey.map some ++ indexes.flatten

/-- `primary_key_for`. -/
def primaryKeyFor : Layout → Option String
  | .mysql primaryKey indexes => (showIndex primaryKey indexes).head?.join
  | .sqlite columns => (columns.filter fun column => column.2).head?.map Prod.fst

/-! ### Statements -/

/-- Assignments to columns. -/
abbrev Data (V : Type*) := List (String × Option V)

/-- What the server makes of values. -/
structure Server (V : Type*) where
  /-- A stored value equals one that is bound. -/
  equal : V → V → Bool
  /-- A row with assignments. -/
  assign : Data V → Row V → Row V
  assign_nil : ∀ row, assign [] row = row

/-- `WHERE #{primary_key_name}=?`: nothing equals NULL. -/
def Server.selects (server : Server V) (column : String) (id : Option V) (row : Row V) : Bool :=
  match cell row column, id with
  | some stored, some bound => server.equal stored bound
  | _, _ => false

/-- `delete`; without a column the statement is refused. -/
def delete (server : Server V) (layout : Layout) (rows : List (Row V)) (id : Option V) :
    Option (List (Row V)) :=
  (primaryKeyFor layout).map fun column => rows.filter fun row => !server.selects column id row

/-- `update`; without a column, or without assignments, the statement is refused. -/
def update (server : Server V) (layout : Layout) (rows : List (Row V)) (id : Option V)
    (data : Data V) : Option (List (Row V)) :=
  match data with
  | [] => none
  | _ :: _ => (primaryKeyFor layout).map fun column =>
      rows.map fun row => if server.selects column id row then server.assign data row else row

/-- `r[primary_key_for(c)]`. -/
def shownKey (layout : Layout) (row : Row V) : Option V := (primaryKeyFor layout).bind (cell row)

/-- **Only the row at this position is touched**: deleting it removes it and nothing else, and
updating it changes it and nothing else.  A statement that is refused leaves the table as it
is. -/
def TouchesOnly (server : Server V) (layout : Layout) (rows : List (Row V))
    (i : Fin rows.length) : Prop :=
  (delete server layout rows (shownKey layout rows[i])).getD rows = rows.eraseIdx i ∧
    ∀ data, (update server layout rows (shownKey layout rows[i]) data).getD rows =
      rows.modify i (server.assign data)

/-- The server finds this value in the column. -/
def Server.finds (server : Server V) (column : String) (v : V) (row : Row V) : Bool :=
  (cell row column).any fun stored => server.equal stored v

/-! ### Which rows are touched -/

variable {server : Server V} {layout : Layout} {rows : List (Row V)} {column : String}

theorem selects_some (v : V) (row : Row V) :
    server.selects column (some v) row = server.finds column v row := by
  unfold Server.selects Server.finds
  cases cell row column <;> rfl

theorem selects_none (row : Row V) : server.selects column none row = false := by
  unfold Server.selects
  cases cell row column <;> rfl

/-- A list is not what is left of it. -/
theorem ne_eraseIdx (i : Fin rows.length) : rows ≠ rows.eraseIdx i := by
  intro h
  have hlength := congrArg List.length h
  rw [List.length_eraseIdx_of_lt i.2] at hlength
  have hpos := i.pos
  omega

/-- Deleting removes the row and nothing else exactly if the server finds its value in no
other row. -/
theorem delete_eq_iff (i : Fin rows.length) :
    (delete server layout rows (shownKey layout rows[i])).getD rows = rows.eraseIdx i ↔
      ∃ column v, primaryKeyFor layout = some column ∧ cell rows[i] column = some v ∧
        Only (server.finds column v) rows i := by
  rw [delete, shownKey]
  cases hcolumn : primaryKeyFor layout with
  | none => exact iff_of_false (ne_eraseIdx i) fun ⟨_, _, h, _⟩ => nomatch h
  | some column =>
    rw [Option.map_some, Option.getD_some, Option.bind_some,
      filter_not_eq_eraseIdx_iff i.2]
    cases hv : cell rows[i] column with
    | none =>
      refine iff_of_false (fun h => ?_) ?_
      · have hselected := (h i rows[i] (List.getElem?_eq_getElem i.2)).mpr rfl
        rw [selects_none] at hselected
        cases hselected
      · rintro ⟨_, v, h, hv', -⟩
        obtain rfl := Option.some.inj h
        rw [hv] at hv'
        cases hv'
    | some v =>
      have hsame : server.selects column (some v) = server.finds column v :=
        funext fun row => selects_some v row
      rw [hsame]
      constructor
      · exact fun h => ⟨column, v, rfl, hv, h⟩
      · rintro ⟨_, w, h, hw, honly⟩
        obtain rfl := Option.some.inj h
        rw [hv] at hw
        rwa [Option.some.inj hw]

/-- **Exactly when only that row is touched**: there is a column, the row has a value in it, and
the server finds that value in this row and in no other one. -/
theorem touchesOnly_iff (server : Server V) (layout : Layout) (rows : List (Row V))
    (i : Fin rows.length) : TouchesOnly server layout rows i ↔
      ∃ column v, primaryKeyFor layout = some column ∧ cell rows[i] column = some v ∧
        Only (server.finds column v) rows i := by
  rw [TouchesOnly, delete_eq_iff]
  refine ⟨fun h => h.1, fun h => ⟨h, fun data => ?_⟩⟩
  obtain ⟨column, v, hcolumn, hv, honly⟩ := h
  cases data with
  | nil =>
    have hassign : server.assign [] = id := funext server.assign_nil
    rw [hassign, List.modify_id]
    rfl
  | cons field data =>
    have hkey : shownKey layout rows[i] = some v := by rw [shownKey, hcolumn, Option.bind_some, hv]
    rw [update, hcolumn, hkey, Option.map_some, Option.getD_some]
    simp only [selects_some]
    exact map_ite_eq_modify honly _

/-- Where the column is a key, and the server tells its values apart, only that row is
touched. -/
theorem touchesOnly_of_key (hcolumn : primaryKeyFor layout = some column)
    (hnodup : (rows.map fun row => cell row column).Nodup)
    (hnull : ∀ row ∈ rows, (cell row column).isSome = true)
    (hequal : ∀ v w, server.equal v w = true ↔ v = w) (i : Fin rows.length) :
    TouchesOnly server layout rows i := by
  obtain ⟨v, hv⟩ := Option.isSome_iff_exists.mp (hnull rows[i] (List.getElem_mem i.2))
  refine (touchesOnly_iff server layout rows i).mpr ⟨column, v, hcolumn, hv, ?_⟩
  refine only_of_injective hnodup (List.getElem?_eq_getElem i.2) fun row hrow => ?_
  show _ ↔ cell row column = cell rows[i] column
  rw [hv, Server.finds]
  cases cell row column <;> simp [hequal]

/-! ### A key of two columns -/

/-- Values are compared, and assigned, as they are. -/
def plainServer : Server ℕ where
  equal := fun v w => v == w
  assign := fun data row => row.map fun field => (field.1, (data.lookup field.1).getD field.2)
  assign_nil := fun row => by simp

/-- A student in two courses. -/
def enrolments : List (Row ℕ) :=
  [[("student", some 1), ("course", some 10)], [("student", some 1), ("course", some 11)]]

/-- Deleting the first of them deletes the second one, too. -/
theorem not_touchesOnly_enrolments :
    ¬ TouchesOnly plainServer (.mysql ["student", "course"] []) enrolments ⟨0, by decide⟩ ∧
    ¬ TouchesOnly plainServer (.sqlite [("student", true), ("course", true)]) enrolments
      ⟨0, by decide⟩ :=
  ⟨fun h => absurd h.1 (by decide), fun h => absurd h.1 (by decide)⟩

end BkPlatform.Labrador.Rows
