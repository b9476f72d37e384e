import BkPlatform.Lib.Table
import BkPlatform.Labrador.App

/-!
# Dropping a database

`dropdb` looks up three things: the record, by name among all records; the current
app, by the name in the URL among the applications of the request; and the
adapter of that app, by the adapter name of the record.  Nothing connects the
record with the user, nor the adapter's database with the record.

So the request is the owner's own exactly when the first record of the name is
the user's and the session that adapter holds was opened with the record's
credentials (`dropsOwn_iff`), or it raises before it comes to the drop.

## Main definitions

* `DatabaseConnections`, `Handle`, `DropRequest` — what a request finds.
* `DropRequest.target`, `dropdb` — the three lookups, and the request.
* `DropsOwn` — only the user's own record is destroyed, through its own handle.

## Main results

* `dropsOwn_iff` — **when a request drops its own.**
* `ownTarget_of_session` — it does in the app of the user's own first record.
-/

namespace BkPlatform.Labrador

/-! ### The request -/

/-- The `database_connections` table. -/
abbrev DatabaseConnections := Table DatabaseConnection DatabaseConnection.id

/-- `destroy` of the record with this primary key. -/
def DatabaseConnections.destroy (t : DatabaseConnections) (id : ℕ) : DatabaseConnections :=
  t.keep fun row => row.id != id

/-- The store an adapter is connected to: the class, by the adapter name it is chosen by,
and the credentials it was opened with. -/
structure Handle where
  store : String
  credentials : Credentials
  deriving DecidableEq, Repr

/-- The store has a method `dropDB`. -/
def Handle.respondsToDropDB (h : Handle) : Bool := ["mongodb", "mysql", "mysql2"].contains h.store

/-- A `dropdb` request of a signed-in user, with the applications found for it and the
database each adapter holds. -/
structure DropRequest where
  user : ℕ
  databaseName : Option String
  params : AppParams
  applications : List App
  database : Adapter → Option Handle

/-- The adapter of a record: that of the application made from its session. -/
def DatabaseConnection.toAdapter (db : DatabaseConnection) : Adapter :=
  ⟨some db.session.toHash, db.name⟩

/-- `DatabaseConnection.find_by name: …`. -/
def findByName (rows : List DatabaseConnection) (name : Option String) :
    Option DatabaseConnection :=
  rows.find? fun db => some db.name == name

/-- The record found and the database `dropDB` is called on; `none` where one of the
lookups leads to a method called on nil. -/
def DropRequest.target (r : DropRequest) (rows : List DatabaseConnection) :
    Option (DatabaseConnection × Handle) := do
  let db ← findByName rows r.databaseName
  let app ← currentApp r.applications r.params
  let adapter ← app.findAdapterByName db.adapter
  let database ← r.database adapter
  if database.respondsToDropDB then some (db, database) else none

/-- A call of `dropDB`. -/
structure DropCall where
  database : Handle
  dbName : String
  user : Option String
  deriving DecidableEq, Repr

/-- What a request has done. -/
structure Dropped where
  /-- The calls of `dropDB`, which raises nothing. -/
  calls : List DropCall
  /-- The records destroyed. -/
  destroyed : List DatabaseConnection
  /-- The records left. -/
  table : DatabaseConnections
  /-- The session cache. -/
  cache : Cache

/-- `dropdb`.  After the drop the session cache is filled anew. -/
def dropdb (t : DatabaseConnections) (cache : Cache) (r : DropRequest) : Dropped :=
  match r.target t.rows with
  | none => ⟨[], [], t, cache⟩
  | some (db, database) =>
    let left := DatabaseConnections.destroy t db.id
    { calls := [⟨database, db.name, db.username⟩]
      destroyed := t.rows.filter fun row => row.id == db.id
      table := left
      cache := addAll (left.rows.filter fun row => row.userId == some r.user) }

/-- Every record destroyed is the user's, and every `dropDB` is called on the database of
that record. -/
def DropsOwn (expandPath : String → String) (user : ℕ) (d : Dropped) : Prop :=
  ∀ db ∈ d.destroyed, db.userId = some user ∧
    ∀ call ∈ d.calls, some call.database.credentials = ownCredentials expandPath db.toAdapter

/-- If the first record of the name, the current app and a connected adapter of the
record's kind are there, the record is the user's and the session the adapter holds was
opened with the record's credentials. -/
def OwnTarget (expandPath : String → String) (rows : List DatabaseConnection)
    (r : DropRequest) : Prop :=
  ∀ db, findByName rows r.databaseName = some db →
    ∀ app, currentApp r.applications r.params = some app →
      ∀ adapter, app.findAdapterByName db.adapter = some adapter →
        ∀ database, r.database adapter = some database → database.respondsToDropDB = true →
          db.userId = some r.user ∧
            some database.credentials = ownCredentials expandPath db.toAdapter

/-! ### Whose database is dropped -/

/-- What the three lookups find. -/
theorem target_eq_some {r : DropRequest} {rows : List DatabaseConnection}
    {db : DatabaseConnection} {database : Handle} :
    r.target rows = some (db, database) ↔
      findByName rows r.databaseName = some db ∧
      ∃ app, currentApp r.applications r.params = some app ∧
        ∃ adapter, app.findAdapterByName db.adapter = some adapter ∧
          r.database adapter = some database ∧ database.respondsToDropDB = true := by
  simp only [DropRequest.target, Option.bind_eq_bind, Option.bind_eq_some_iff,
    Option.ite_none_right_eq_some, Option.some.injEq, Prod.mk.injEq]
  constructor
  · rintro ⟨db', hdb, app, happ, adapter, hadapter, database', hdatabase, hresponds, rfl, rfl⟩
    exact ⟨hdb, app, happ, adapter, hadapter, hdatabase, hresponds⟩
  · rintro ⟨hdb, app, happ, adapter, hadapter, hdatabase, hresponds⟩
    exact ⟨db, hdb, app, happ, adapter, hadapter, database, hdatabase, hresponds, rfl, rfl⟩

/-- The record a primary key belongs to is the only one destroyed. -/
theorem filter_id (t : DatabaseConnections) {db : DatabaseConnection} (hdb : db ∈ t.rows) :
    ∀ row, row ∈ t.rows.filter (fun row => row.id == db.id) ↔ row = db := by
  intro row
  rw [List.mem_filter, beq_iff_eq]
  constructor
  · rintro ⟨hrow, hid⟩
    exact t.eq_of_key hrow hdb hid
  · rintro rfl
    exact ⟨hdb, rfl⟩

/-- **A request destroys only its user's record, through that record's own database, iff
the record it finds is the user's and the database it finds is the record's.** -/
theorem dropsOwn_iff (expandPath : String → String) (t : DatabaseConnections) (cache : Cache)
    (r : DropRequest) :
    DropsOwn expandPath r.user (dropdb t cache r) ↔ OwnTarget expandPath t.rows r := by
  unfold dropdb
  cases htarget : r.target t.rows with
  | none =>
    -- the request has raised, and nothing is dropped
    constructor
    · intro _ db hdb app happ adapter hadapter database hdatabase hresponds
      have hsome := target_eq_some.mpr ⟨hdb, app, happ, adapter, hadapter, hdatabase, hresponds⟩
      rw [htarget] at hsome
      exact absurd hsome (by simp)
    · intro _ db hdb
      exact absurd hdb List.not_mem_nil
  | some found =>
    obtain ⟨db, database⟩ := found
    obtain ⟨hdb, app, happ, adapter, hadapter, hdatabase, hresponds⟩ := target_eq_some.mp htarget
    have hmem := filter_id t (List.mem_of_find?_eq_some hdb)
    constructor
    · intro hown db' hdb' app' happ' adapter' hadapter' database' hdatabase' _
      obtain rfl := Option.some.inj (hdb.symm.trans hdb')
      obtain rfl := Option.some.inj (happ.symm.trans happ')
      obtain rfl := Option.some.inj (hadapter.symm.trans hadapter')
      obtain rfl := Option.some.inj (hdatabase.symm.trans hdatabase')
      obtain ⟨huser, hcalls⟩ := hown db ((hmem db).mpr rfl)
      exact ⟨huser, hcalls _ (List.mem_singleton_self _)⟩
    · intro hown row hrow
      obtain rfl := (hmem row).mp hrow
      obtain ⟨huser, hcredentials⟩ :=
        hown row hdb app happ adapter hadapter database hdatabase hresponds
      refine ⟨huser, fun call hcall => ?_⟩
      obtain rfl := List.mem_singleton.mp hcall
      exact hcredentials

/-- **In the app of the user's own record, if that is the first of its name and every
adapter holds a session of its own credentials, a request drops its own.** -/
theorem ownTarget_of_session {expandPath : String → String} {rows : List DatabaseConnection}
    {r : DropRequest} {db : DatabaseConnection} {app : App}
    (hfirst : findByName rows r.databaseName = some db) (huser : db.userId = some r.user)
    (hcurrent : currentApp r.applications r.params = some app)
    (happ : App.ofSession db.session = some app)
    (hhandles : ∀ adapter database, r.database adapter = some database →
      some database.credentials = ownCredentials expandPath adapter) :
    OwnTarget expandPath rows r := by
  intro db' hdb' app' happ' adapter hadapter database hdatabase _
  obtain rfl := Option.some.inj (hfirst.symm.trans hdb')
  obtain rfl := Option.some.inj (hcurrent.symm.trans happ')
  refine ⟨huser, ?_⟩
  rw [hhandles adapter database hdatabase]
  -- the app of a session has one adapter, that of the session
  rw [App.ofSession, session_name, Option.map_some] at happ
  obtain rfl := Option.some.inj happ
  have honly := List.mem_of_find?_eq_some hadapter
  rw [List.mem_singleton] at honly
  rw [honly]
  rfl

/-! ### The condition is needed -/

/-- Records of two users with databases of the same name. -/
def twoRecords : DatabaseConnections where
  rows :=
    [⟨1, some 1, "mysql", "shop", "10.0.0.5", some "shop", some "an", some "an-secret", none⟩,
     ⟨2, some 2, "mongodb", "shop", "10.0.0.9", some "shop", some "bui", some "bui-secret", none⟩,
     ⟨3, some 2, "mysql", "blog", "10.0.0.5", some "blog", some "bui", some "bui-blog", none⟩]
  nextId := 4
  nodup := by decide
  fresh := by decide

/-- A request of user 2, whose applications are all connected with their own credentials. -/
def requestOfSecond (databaseName path : String) : DropRequest where
  user := 2
  databaseName := some databaseName
  params := { path := some path }
  applications := ((twoRecords.rows.filter fun db => db.userId == some 2).filterMap fun db =>
    App.ofSession db.session)
  database := fun a => (ownCredentials id a).map fun c => ⟨a.name.getD "", c⟩

/-- User 2 asks for the own keyspace "shop" to be dropped from within the own app "blog":
the record of user 1 is destroyed, and `dropDB` is called on the database "blog". -/
theorem record_of_other_user_destroyed :
    (dropdb twoRecords none (requestOfSecond "shop" "blog")).destroyed.map
        DatabaseConnection.userId = [some 1] ∧
      ¬ DropsOwn id 2 (dropdb twoRecords none (requestOfSecond "shop" "blog")) := by
  have hdestroyed : (dropdb twoRecords none (requestOfSecond "shop" "blog")).destroyed.map
      DatabaseConnection.userId = [some 1] := by decide
  refine ⟨hdestroyed, fun hown => ?_⟩
  obtain ⟨db, hdb, huser⟩ := List.mem_map.mp
    (show some 1 ∈ _ from hdestroyed ▸ List.mem_singleton_self (some 1))
  rw [(hown db hdb).1] at huser
  exact absurd huser (by decide)

end BkPlatform.Labrador
