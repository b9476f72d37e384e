import Mathlib.Data.List.Basic
import Mathlib.Data.Nat.Notation

/-!
# Creating a table

`DataController#createtable` puts the columns of a request together to a `CREATE TABLE`
statement, and has the database prepare and execute it.  `createTable` returns whatever was
raised on the way; and so it does when nothing was, for its last line evaluates the constant
`True`, which is defined nowhere.  The controller tells failure from success by the class name
of what it got: it reports failure for `Mysql::ServerError::ParseError` only.

## Main definitions

* `ColumnParams`, `columnText`, `createTableQuery` — the request and its statement.
* `Database`, `Database.createTable` — the driver, and the value returned.
* `createtable`, `tableCreated` — the action, and what it has done.

## Main results

* `reportsTruth_iff` — **exactly when the response tells whether the table was created.**
-/

namespace BkPlatform.Labrador

/-- An exception, with the name of its class. -/
structure RubyException where
  className : String
  message : String
  deriving DecidableEq, Repr

/-! ### The statement -/

/-- A column of `params['columns']`. -/
structure ColumnParams where
  field : Option String
  type : Option String
  length : Option String
  attributes : Option String
  default : Option String
  null : Option String
  extra : Option String
  index : Option String
  deriving DecidableEq, Repr

/-- `#{value}`. -/
def interpolate (value : Option String) : List Char := (value.getD "").toList

/-- The right side of a `+`. -/
def operand (value : Option String) : Except RubyException (List Char) :=
  match value with
  | some s => .ok s.toList
  | none => .error ⟨"TypeError", "no implicit conversion of nil into String"⟩

/-- The key clause of a column; for `INDEX` nothing is appended. -/
def keyText (i : ColumnParams) : List Char :=
  if i.index = some "PRIMARY" then
    "PRIMARY KEY (`".toList ++ interpolate i.field ++ "`),".toList
  else if i.index = some "UNIQUE" then
    "UNIQUE KEY (`".toList ++ interpolate i.field ++ "`),".toList
  else []

/-- What is appended to `str` for a column. -/
def columnText (i : ColumnParams) : Except RubyException (List Char) := do
  let type ← operand i.type
  let attributes ← operand i.attributes
  let default ← operand i.default
  let null ← operand i.null
  let extra ← operand i.extra
  return "`".toList ++ interpolate i.field ++ "` ".toList ++ type ++
    "(".toList ++ interpolate i.length ++ ") ".toList ++ attributes ++ " ".toList ++
    default ++ " ".toList ++ null ++ " ".toList ++ extra ++ ",".toList ++ keyText i

/-- A request: `params['name']` and `params['columns']`. -/
structure TableParams where
  name : Option String
  columns : List ColumnParams
  deriving DecidableEq, Repr

/-- What is left of `str` in the statement: `str[0..-2]` is without its last character. -/
def createTableQuery (params : TableParams) : Except RubyException (List Char) := do
  let texts ← params.columns.mapM columnText
  return "CREATE TABLE `".toList ++ interpolate params.name ++ "` (\n      ".toList ++
    texts.flatten.dropLast ++
    "\n      ) ENGINE=InnoDB AUTO_INCREMENT=0 DEFAULT CHARSET=utf8;".toList

/-! ### The driver -/

/-- The two adapters that have a `createTable`. -/
inductive Store
  | mysql
  | mongoDB
  deriving DecidableEq, Repr

/-- The class of the adapter. -/
def Store.className : Store → String
  | mysql => "Labrador::Mysql"
  | mongoDB => "Labrador::MongoDB"

/-- A database: `session.prepare` and `query.execute`, which raise or do not.  A table is created
by a statement that is executed. -/
structure Database where
  store : Store
  prepare : List Char → Except RubyException Unit
  execute : List Char → Except RubyException Unit

/-- `True`. -/
def constantTrue (store : Store) : Except RubyException Unit :=
  .error ⟨"NameError", "uninitialized constant " ++ store.className ++ "::True"⟩

/-- `createTable`: the exception it rescues and returns, or none for `True`. -/
def Database.createTable (database : Database) (args : List Char) : Option RubyException :=
  let body : Except RubyException Unit := do
    database.prepare args
    database.execute args
    constantTrue database.store
  match body with
  | .error e => some e
  | .ok () => none

/-- The exception of the driver. -/
def Database.raised (database : Database) (args : List Char) : Option RubyException :=
  let body : Except RubyException Unit := do
    database.prepare args
    database.execute args
  match body with
  | .error e => some e
  | .ok () => none

/-! ### The action -/

/-- `{ success: …, message: … }`. -/
structure Response where
  success : Bool
  message : Option String
  deriving DecidableEq, Repr

/-- `DataController#createtable`, of an adapter whose `connect` has returned something; without a
connection nothing is rendered. -/
def createtable (connection : Option Database) (params : TableParams) :
    Except RubyException (Option Response) :=
  match connection with
  | none => .ok none
  | some database => do
    let query ← createTableQuery params
    let e := database.createTable query
    match e with
    | some e =>
      if e.className = "Mysql::ServerError::ParseError" then return some ⟨false, some e.message⟩
      else return some ⟨true, none⟩
    | none => return some ⟨true, none⟩

/-- Whether the table has been created: the statement was put together, and prepared and executed
without an error. -/
def tableCreated (database : Database) (params : TableParams) : Bool :=
  match createTableQuery params with
  | .error _ => false
  | .ok query => (database.raised query).isNone

/-- The response is `success: true` iff the table has been created. -/
def ReportsTruth (database : Database) (params : TableParams) : Prop :=
  (∃ response, createtable (some database) params = .ok (some response) ∧
    response.success = true) ↔ tableCreated database params = true

/-- What `createTable` returns: the exception of the driver, or a `NameError`. -/
theorem createTable_eq (database : Database) (args : List Char) :
    database.createTable args = some ((database.raised args).getD
      ⟨"NameError", "uninitialized constant " ++ database.store.className ++ "::True"⟩) := by
  unfold Database.createTable Database.raised
  cases database.prepare args with
  | error e => rfl
  | ok _ =>
    cases database.execute args with
    | error e => rfl
    | ok _ => rfl

/-- The response of a request whose statement could be put together. -/
theorem createtable_eq {database : Database} {params : TableParams} {query : List Char}
    (hquery : createTableQuery params = .ok query) {e : RubyException}
    (he : database.createTable query = some e) :
    createtable (some database) params = .ok (some
      (if e.className = "Mysql::ServerError::ParseError" then ⟨false, some e.message⟩
       else ⟨true, none⟩)) := by
  have hbody : createtable (some database) params =
      (match database.createTable query with
       | some e =>
         if e.className = "Mysql::ServerError::ParseError" then
           .ok (some ⟨false, some e.message⟩)
         else .ok (some ⟨true, none⟩)
       | none => .ok (some ⟨true, none⟩)) := by
    simp only [createtable, hquery]
    rfl
  rw [hbody, he]
  show (if _ then _ else _) = _
  split
  · rfl
  · rfl

/-- **Exactly when the response tells the truth**: if the statement is executed, or what the
driver raises is a parse error. -/
theorem reportsTruth_iff (database : Database) (params : TableParams) :
    ReportsTruth database params ↔ ∀ query e, createTableQuery params = .ok query →
      database.raised query = some e → e.className = "Mysql::ServerError::ParseError" := by
  cases hquery : createTableQuery params with
  | error e =>
    -- nothing is created, and there is no response
    have hcreated : tableCreated database params = false := by simp [tableCreated, hquery]
    have hraises : createtable (some database) params = .error e := by
      simp only [createtable, hquery]
      rfl
    refine iff_of_true ?_ (fun _ _ hok => by cases hok)
    rw [ReportsTruth, hcreated, hraises]
    simp
  | ok query =>
    have hcreated : tableCreated database params = (database.raised query).isNone := by
      simp [tableCreated, hquery]
    have hresponse := createtable_eq hquery (createTable_eq database query)
    have hcondition : (∀ query' e,
          (Except.ok query : Except RubyException (List Char)) = .ok query' →
            database.raised query' = some e → e.className = "Mysql::ServerError::ParseError") ↔
        ∀ e, database.raised query = some e → e.className = "Mysql::ServerError::ParseError" := by
      constructor
      · intro h e he
        exact h query e rfl he
      · intro h query' e heq he
        cases heq
        exact h e he
    rw [ReportsTruth, hcreated, hresponse, hcondition]
    cases database.raised query with
    | none =>
      -- the name error is no parse error
      simp
    | some e => by_cases hparse : e.className = "Mysql::ServerError::ParseError" <;> simp [hparse]

/-! ### A table that exists -/

/-- A database that has the table already. -/
def tableExists : Database where
  store := .mysql
  prepare := fun _ => .ok ()
  execute := fun _ =>
    .error ⟨"Mysql::ServerError::TableExistsError", "Table 'orders' already exists"⟩

/-- The request for a table of one column. -/
def ordersParams : TableParams where
  name := some "orders"
  columns := [⟨some "id", some "INT", some "11", some "", some "", some "NOT NULL",
    some "AUTO_INCREMENT", some "PRIMARY"⟩]

/-- The table is not created a second time, and the response is a success. -/
theorem not_reportsTruth_tableExists : ¬ ReportsTruth tableExists ordersParams := by
  intro h
  obtain ⟨query, hquery⟩ : ∃ query, createTableQuery ordersParams = .ok query := ⟨_, rfl⟩
  have hresponse := @createtable_eq tableExists ordersParams query hquery _ rfl
  rw [if_neg (by decide)] at hresponse
  have hcreated := h.mp ⟨_, hresponse, rfl⟩
  simp [tableCreated, hquery, tableExists, Database.raised, bind, Except.bind] at hcreated

end BkPlatform.Labrador
