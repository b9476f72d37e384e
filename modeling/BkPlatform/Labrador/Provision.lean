import BkPlatform.Lib.Run
import BkPlatform.Labrador.DropDb

/-!
# Records and databases

A `create` request sends its statements to the database server and saves the
record last; a `dropdb` request has `dropDB` send its statements and destroys the
record last.  Any statement may fail.  A failed statement ends `create` and is
rescued in `dropDB`; what was done before it stays.

So the records correspond to the databases after each request exactly when no
request creates a database and then fails, and no request destroys a record
whose database it has not dropped (`corresponds_iff`).

The accounts of the databases are left out: whether a statement about an account
goes through is part of the answers of the server.

## Main definitions

* `Server`, `Statement`, `execute` — statements sent to a server.
* `Provisioned`, `create`, `drop`, `Request`, `handle` — the two requests.
* `Corresponds` — each database has a record, and each record its database.
* `Clean` — the request does what it has begun.

## Main results

* `corresponds_iff` — **the first holds throughout a run iff the second does.**
* `corresponds_handle_iff` — the same for one request.
-/

namespace BkPlatform.Labrador

open RubyString Run

/-! ### Servers and statements -/

/-- The servers databases are created on. -/
inductive Server
  | mysql
  | cassandra
  deriving DecidableEq, Repr

/-- The server of a record, as `create` chooses it. -/
def Server.ofAdapter (adapter : String) : Server :=
  if adapter = "mysql" then .mysql else .cassandra

/-- The server a handle is connected to, if it is one of the configured ones. -/
def Handle.server (host : Server → String) (h : Handle) : Option Server :=
  let server := if h.store = "mongodb" then Server.cassandra else Server.mysql
  if h.credentials.host = some (host server) then some server else none

/-- What is sent to a server. -/
inductive Statement
  | connect
  | createDatabase
  | grantLocalhost
  | grantAnyHost
  | createUser
  | grantKeyspace
  | dropDatabase
  | dropUserLocalhost
  | dropUserAnyHost
  | dropUser
  | close
  deriving DecidableEq, Repr

/-- The statements after `CREATE DATABASE`. -/
def grantStatements : Server → List Statement
  | .mysql => [.grantLocalhost, .grantAnyHost]
  | .cassandra => [.createUser, .grantKeyspace, .close]

/-- The statements of `create`. -/
def createStatements (server : Server) : List Statement :=
  .connect :: .createDatabase :: grantStatements server

/-- The statements after `DROP DATABASE`. -/
def revokeStatements : Server → List Statement
  | .mysql => [.connect, .dropUserLocalhost, .dropUserAnyHost]
  | .cassandra => [.close, .connect, .dropUser, .close]

/-- The statements of `dropDB`. -/
def dropStatements (server : Server) : List Statement := .dropDatabase :: revokeStatements server

/-- One statement about the database `name`, answered `ok` or with an error, which is
raised.  A database is created only under a name that is not taken, and dropped only
where there is one. -/
def Statement.run (name : String) (ok : Bool) (databases : List String) :
    Statement → Option (List String)
  | .createDatabase =>
    if ok ∧ isBlank name = false ∧ name ∉ databases then some (databases ++ [name]) else none
  | .dropDatabase =>
    if ok ∧ name ∈ databases then some (databases.filter fun d => d ≠ name) else none
  | _ => if ok then some databases else none

/-- Statements sent one after the other, up to the first that raises. -/
def execute (name : String) (answers : Statement → Bool) :
    List Statement → List String → List String × Bool
  | [], databases => (databases, true)
  | st :: sts, databases =>
    match st.run name (answers st) databases with
    | none => (databases, false)
    | some databases => execute name answers sts databases

/-! ### The requests -/

/-- The table of records, and the databases on each server. -/
structure Provisioned where
  table : DatabaseConnections
  databases : Server → List String

/-- The presence validations of `DatabaseConnection`. -/
def DatabaseConnection.valid (db : DatabaseConnection) : Bool :=
  [some db.adapter, some db.name, some db.host, db.username, db.database, db.password].all
    fun value => value.any fun text => !isBlank text

/-- A `create` request of a signed-in user, with the account generated for it. -/
structure CreateRequest where
  user : ℕ
  adapter : Option String
  database : Option String
  socket : Option String
  username : String
  password : String
  /-- The answers of the server. -/
  answers : Statement → Bool
  /-- The answer of the record store to the insertion. -/
  saved : Bool

/-- The server the request goes to. -/
def CreateRequest.server (r : CreateRequest) : Server := Server.ofAdapter (r.adapter.getD "")

/-- The name of the database, as it is interpolated into the statements. -/
def CreateRequest.name (r : CreateRequest) : String := r.database.getD ""

/-- The record made for the request. -/
def CreateRequest.record (host : Server → String) (r : CreateRequest) : DatabaseConnection where
  id := 0
  userId := some r.user
  adapter := r.adapter.getD ""
  name := r.name
  host := host r.server
  database := r.database
  username := some r.username
  password := some r.password
  socket := r.socket

/-- `DatabaseConnectionsController#create`. -/
def create (host : Server → String) (s : Provisioned) (r : CreateRequest) : Provisioned :=
  let sent := execute r.name r.answers (createStatements r.server) (s.databases r.server)
  { table :=
      if sent.2 && (r.record host).valid && r.saved then
        s.table.insert (fun id => { r.record host with id := id }) fun _ => rfl
      else s.table
    databases := Function.update s.databases r.server sent.1 }

/-- `dropDB`.  The rescue ends the method, and nothing is raised. -/
def dropDB (host : Server → String) (answers : Statement → Bool)
    (databases : Server → List String) (call : DropCall) : Server → List String :=
  match call.database.server host with
  | none => databases
  | some server =>
    Function.update databases server
      (execute call.dbName answers (dropStatements server) (databases server)).1

/-- `DataController#dropdb`: the calls of `dropDB`, and then the record. -/
def drop (host : Server → String) (s : Provisioned) (r : DropRequest)
    (answers : Statement → Bool) : Provisioned :=
  let dropped := dropdb s.table none r
  { table := dropped.table
    databases := dropped.calls.foldl (dropDB host answers) s.databases }

/-- A request; a `dropdb` request comes with the answers of the server. -/
inductive Request
  | create (r : CreateRequest)
  | dropdb (r : DropRequest) (answers : Statement → Bool)

/-- One request. -/
def handle (host : Server → String) (s : Provisioned) : Request → Provisioned
  | .create r => create host s r
  | .dropdb r answers => drop host s r answers

/-- No records and no databases. -/
def Provisioned.empty : Provisioned where
  table := Table.empty
  databases := fun _ => []

/-! ### The correspondence -/

/-- The database created for a record: its server and its name. -/
def DatabaseConnection.place (db : DatabaseConnection) : Server × String :=
  (Server.ofAdapter db.adapter, db.name)

/-- **There is a record for a database iff the database is on the server.** -/
def Corresponds (s : Provisioned) : Prop :=
  ∀ server name, name ∈ s.databases server ↔
    (server, name) ∈ s.table.rows.map DatabaseConnection.place

/-- `CREATE DATABASE` goes through. -/
def CreateRequest.Creates (r : CreateRequest) (databases : List String) : Prop :=
  r.answers .connect = true ∧ r.answers .createDatabase = true ∧
    isBlank r.name = false ∧ r.name ∉ databases

/-- What comes after `CREATE DATABASE` goes through as well. -/
def CreateRequest.Completes (host : Server → String) (r : CreateRequest) : Prop :=
  (∀ st ∈ grantStatements r.server, r.answers st = true) ∧
    (r.record host).valid = true ∧ r.saved = true

/-- A `create` request whose `CREATE DATABASE` goes through is completed; the handle a
`dropdb` request finds is connected to the server of the record it finds, and the server
answers the `DROP DATABASE`. -/
def Clean (host : Server → String) (s : Provisioned) : Request → Prop
  | .create r => r.Creates (s.databases r.server) → r.Completes host
  | .dropdb r answers =>
    ∀ db database, r.target s.table.rows = some (db, database) →
      database.server host = some (Server.ofAdapter db.adapter) ∧ answers .dropDatabase = true

/-- What holds between the requests of a run that keeps the correspondence: no two
records stand for one database. -/
structure Settled (s : Provisioned) : Prop where
  corresponds : Corresponds s
  unique : (s.table.rows.map DatabaseConnection.place).Nodup

theorem settled_empty : Settled .empty :=
  ⟨fun _ _ => by simp [Provisioned.empty], List.nodup_nil⟩

/-! ### Executing statements -/

/-- Statements about accounts leave the databases alone. -/
theorem execute_of_forall_ne (name : String) (answers : Statement → Bool)
    {sts : List Statement} (hne : ∀ st ∈ sts, st ≠ .createDatabase ∧ st ≠ .dropDatabase)
    (databases : List String) :
    (execute name answers sts databases).1 = databases ∧
      ((execute name answers sts databases).2 = true ↔ ∀ st ∈ sts, answers st = true) := by
  induction sts with
  | nil => exact ⟨rfl, by simp [execute]⟩
  | cons st sts ih =>
    obtain ⟨hcreate, hdrop⟩ := hne st List.mem_cons_self
    have hrun : st.run name (answers st) databases =
        if answers st = true then some databases else none := by
      cases st <;> first | contradiction | rfl
    have hrest := ih fun st hst => hne st (List.mem_cons_of_mem _ hst)
    by_cases hok : answers st = true
    · rw [execute, hrun, if_pos hok]
      refine ⟨hrest.1, hrest.2.trans ?_⟩
      rw [List.forall_mem_cons]
      exact (and_iff_right hok).symm
    · rw [execute, hrun, if_neg hok]
      refine ⟨rfl, ?_⟩
      simp [hok]

theorem grantStatements_ne (server : Server) :
    ∀ st ∈ grantStatements server, st ≠ .createDatabase ∧ st ≠ .dropDatabase := by
  cases server <;> decide

theorem revokeStatements_ne (server : Server) :
    ∀ st ∈ revokeStatements server, st ≠ .createDatabase ∧ st ≠ .dropDatabase := by
  cases server <;> decide

/-- The statements of `create`, when `CREATE DATABASE` goes through. -/
theorem execute_create {r : CreateRequest} {databases : List String}
    (hcreates : r.Creates databases) :
    (execute r.name r.answers (createStatements r.server) databases).1 = databases ++ [r.name] ∧
      ((execute r.name r.answers (createStatements r.server) databases).2 = true ↔
        ∀ st ∈ grantStatements r.server, r.answers st = true) := by
  obtain ⟨hconnect, hcreate, hblank, hfree⟩ := hcreates
  have hfirst : execute r.name r.answers (createStatements r.server) databases =
      execute r.name r.answers (grantStatements r.server) (databases ++ [r.name]) := by
    simp [createStatements, execute, Statement.run, hconnect, hcreate, hblank, hfree]
  rw [hfirst]
  exact execute_of_forall_ne _ _ (grantStatements_ne r.server) _

/-- When it does not, there is no effect, and the rest is not reached. -/
theorem execute_create_of_not {r : CreateRequest} {databases : List String}
    (hcreates : ¬ r.Creates databases) :
    execute r.name r.answers (createStatements r.server) databases = (databases, false) := by
  by_cases hconnect : r.answers .connect = true
  · have hsome : Statement.connect.run r.name (r.answers .connect) databases = some databases :=
      if_pos hconnect
    have hnone : Statement.createDatabase.run r.name (r.answers .createDatabase) databases = none :=
      if_neg fun h => hcreates ⟨hconnect, h⟩
    rw [createStatements, execute, hsome]
    simp only [execute, hnone]
  · simp [createStatements, execute, Statement.run, hconnect]

/-- The statements of `dropDB` take away the database, or nothing. -/
theorem execute_drop (name : String) (answers : Statement → Bool) (server : Server)
    (databases : List String) :
    (execute name answers (dropStatements server) databases).1 =
      if answers .dropDatabase = true then databases.filter fun d => d ≠ name else databases := by
  have hrest := fun databases =>
    (execute_of_forall_ne name answers (revokeStatements_ne server) databases).1
  by_cases hok : answers .dropDatabase = true
  · rw [if_pos hok]
    by_cases hmem : name ∈ databases
    · -- what comes after the drop is about accounts
      simp only [dropStatements, execute, Statement.run, hok, hmem, and_self, if_true]
      exact hrest _
    · -- there is nothing to drop: the statement is refused
      simp only [dropStatements, execute, Statement.run, hmem, and_false, if_false]
      refine (List.filter_eq_self.mpr fun d hd => ?_).symm
      simpa using ne_of_mem_of_not_mem hd hmem
  · simp [dropStatements, execute, Statement.run, hok]

/-! ### One request -/

/-- Where no two records have one place, that of a destroyed record is taken away. -/
theorem mem_place_destroy {t : DatabaseConnections}
    (hunique : (t.rows.map DatabaseConnection.place).Nodup) {db : DatabaseConnection}
    (hdb : db ∈ t.rows) (p : Server × String) :
    p ∈ (t.destroy db.id).rows.map DatabaseConnection.place ↔
      p ∈ t.rows.map DatabaseConnection.place ∧ p ≠ db.place := by
  simp only [DatabaseConnections.destroy, List.mem_map, Table.mem_keep, bne_iff_ne]
  constructor
  · rintro ⟨row, ⟨hrow, hid⟩, rfl⟩
    refine ⟨⟨row, hrow, rfl⟩, fun hplace => hid ?_⟩
    rw [List.inj_on_of_nodup_map hunique hrow hdb hplace]
  · rintro ⟨⟨row, hrow, rfl⟩, hplace⟩
    refine ⟨row, ⟨hrow, fun hid => hplace ?_⟩, rfl⟩
    rw [t.eq_of_key hrow hdb hid]

/-- A `create` request that does not create a database changes nothing. -/
theorem create_of_not_creates (host : Server → String) {s : Provisioned} {r : CreateRequest}
    (hcreates : ¬ r.Creates (s.databases r.server)) : create host s r = s := by
  simp [create, execute_create_of_not hcreates]

/-- One that does adds the database, and the record if the rest goes through. -/
theorem create_of_creates (host : Server → String) {s : Provisioned} {r : CreateRequest}
    (hcreates : r.Creates (s.databases r.server)) :
    (create host s r).databases =
        Function.update s.databases r.server (s.databases r.server ++ [r.name]) ∧
      (r.Completes host → (create host s r).table.rows =
        s.table.rows ++ [{ r.record host with id := s.table.nextId }]) ∧
      (¬ r.Completes host → (create host s r).table = s.table) := by
  obtain ⟨hdatabases, hdone⟩ := execute_create hcreates
  refine ⟨by rw [create, hdatabases], fun hcompletes => ?_, fun hfails => ?_⟩
  · obtain ⟨hgrants, hvalid, hsaved⟩ := hcompletes
    simp [create, hdone.mpr hgrants, hvalid, hsaved, Table.insert]
  · simp only [create, Bool.and_eq_true]
    refine if_neg fun h => hfails ⟨hdone.mp h.1.1, h.1.2, h.2⟩

/-- A `dropdb` request that finds nothing to drop changes nothing. -/
theorem drop_of_none (host : Server → String) {s : Provisioned} {r : DropRequest}
    (answers : Statement → Bool) (htarget : r.target s.table.rows = none) :
    drop host s r answers = s := by
  simp [drop, dropdb, htarget]

/-- One that does destroys the record, and sends the statements to the server of the
handle. -/
theorem drop_of_some (host : Server → String) {s : Provisioned} {r : DropRequest}
    (answers : Statement → Bool) {db : DatabaseConnection} {database : Handle}
    (htarget : r.target s.table.rows = some (db, database)) :
    (drop host s r answers).table = s.table.destroy db.id ∧
      ∀ server, (drop host s r answers).databases server =
        if database.server host = some server ∧ answers .dropDatabase = true then
          (s.databases server).filter fun d => d ≠ db.name
        else s.databases server := by
  simp only [drop, dropdb, htarget, List.foldl_cons, List.foldl_nil, dropDB, true_and]
  intro server
  cases hserver : database.server host with
  | none => simp
  | some reached =>
    by_cases hsame : server = reached
    · subst hsame
      simp [execute_drop]
    · simp only [Function.update_of_ne hsame]
      rw [if_neg]
      exact fun h => hsame (Option.some.inj h.1).symm

/-- **After a `create` request the records correspond iff the request is clean.** -/
theorem corresponds_create_iff (host : Server → String) {s : Provisioned} (hs : Settled s)
    (r : CreateRequest) : Corresponds (create host s r) ↔ Clean host s (.create r) := by
  by_cases hcreates : r.Creates (s.databases r.server)
  · obtain ⟨hdatabases, hinsert, hkeep⟩ := create_of_creates host hcreates
    by_cases hcompletes : r.Completes host
    · -- one database and one record more, at the same place
      refine iff_of_true (fun server name => ?_) fun _ => hcompletes
      rw [hdatabases, hinsert hcompletes, List.map_append, List.mem_append, List.map_singleton,
        List.mem_singleton, ← hs.corresponds]
      by_cases hserver : server = r.server
      · subst hserver
        rw [Function.update_self, List.mem_append, List.mem_singleton]
        refine or_congr_right ⟨fun hname => ?_, fun hplace => congrArg Prod.snd hplace⟩
        rw [hname]
        rfl
      · rw [Function.update_of_ne hserver]
        exact (or_iff_left fun hplace => hserver (congrArg Prod.fst hplace)).symm
    · -- the database is there, but the record is not: that of the name would be an old one
      refine iff_of_false (fun hcorr => ?_) fun hclean => hcompletes (hclean hcreates)
      have hold := (hcorr r.server r.name).mp (by rw [hdatabases]; simp)
      rw [hkeep hcompletes] at hold
      exact hcreates.2.2.2 ((hs.corresponds _ _).mpr hold)
  · rw [create_of_not_creates host hcreates]
    exact iff_of_true hs.corresponds fun h => absurd h hcreates

/-- **After a `dropdb` request the records correspond iff the request is clean.** -/
theorem corresponds_drop_iff (host : Server → String) {s : Provisioned} (hs : Settled s)
    (r : DropRequest) (answers : Statement → Bool) :
    Corresponds (drop host s r answers) ↔ Clean host s (.dropdb r answers) := by
  cases htarget : r.target s.table.rows with
  | none =>
    rw [drop_of_none host answers htarget]
    apply iff_of_true hs.corresponds
    intro db database hsome
    rw [htarget] at hsome
    exact absurd hsome (by simp)
  | some found =>
    obtain ⟨db, database⟩ := found
    have hmem : db ∈ s.table.rows := List.mem_of_find?_eq_some (target_eq_some.mp htarget).1
    obtain ⟨htable, hdatabases⟩ := drop_of_some host answers htarget
    by_cases hreaches : database.server host = some (Server.ofAdapter db.adapter) ∧
        answers .dropDatabase = true
    · -- one database and one record less, at the same place
      refine iff_of_true (fun server name => ?_) fun db' database' hsome => ?_
      · rw [htable, mem_place_destroy hs.unique hmem, ← hs.corresponds, hdatabases]
        by_cases hserver : server = Server.ofAdapter db.adapter
        · subst hserver
          rw [if_pos hreaches, List.mem_filter, decide_eq_true_iff]
          refine and_congr_right fun _ => not_congr ⟨fun hname => ?_, congrArg Prod.snd⟩
          rw [hname]
          rfl
        · rw [if_neg fun h => hserver (Option.some.inj (h.1.symm.trans hreaches.1))]
          exact (and_iff_left fun hplace => hserver (congrArg Prod.fst hplace)).symm
      · obtain ⟨rfl, rfl⟩ := Prod.mk.inj (Option.some.inj (htarget.symm.trans hsome))
        exact hreaches
    · -- the record is destroyed, and its database is left
      refine iff_of_false (fun hcorr => ?_) fun hclean => hreaches (hclean db database htarget)
      have hold : db.name ∈ s.databases (Server.ofAdapter db.adapter) :=
        (hs.corresponds _ _).mpr (List.mem_map.mpr ⟨db, hmem, rfl⟩)
      have hleft := (hcorr (Server.ofAdapter db.adapter) db.name).mp
        (by rw [hdatabases, if_neg hreaches]; exact hold)
      rw [htable, mem_place_destroy hs.unique hmem] at hleft
      exact hleft.2 rfl

/-- After any request the records correspond iff the request is clean. -/
theorem corresponds_handle_iff (host : Server → String) {s : Provisioned} (hs : Settled s)
    (a : Request) : Corresponds (handle host s a) ↔ Clean host s a := by
  cases a with
  | create r => exact corresponds_create_iff host hs r
  | dropdb r answers => exact corresponds_drop_iff host hs r answers

/-- A request after which the records correspond leaves no two of one database. -/
theorem settled_handle (host : Server → String) {s : Provisioned} (hs : Settled s)
    {a : Request} (hcorr : Corresponds (handle host s a)) : Settled (handle host s a) := by
  refine ⟨hcorr, ?_⟩
  cases a with
  | create r =>
    rw [handle]
    by_cases hcreates : r.Creates (s.databases r.server)
    · obtain ⟨-, hinsert, hkeep⟩ := create_of_creates host hcreates
      by_cases hcompletes : r.Completes host
      · -- the server has refused the name where it is taken
        rw [hinsert hcompletes, List.map_append, List.map_singleton, List.nodup_append]
        refine ⟨hs.unique, List.nodup_singleton _, fun p hp q hq => ?_⟩
        obtain rfl := List.mem_singleton.mp hq
        rintro rfl
        exact hcreates.2.2.2 ((hs.corresponds r.server r.name).mpr hp)
      · rw [hkeep hcompletes]
        exact hs.unique
    · rw [create_of_not_creates host hcreates]
      exact hs.unique
  | dropdb r answers =>
    rw [handle]
    cases htarget : r.target s.table.rows with
    | none =>
      rw [drop_of_none host answers htarget]
      exact hs.unique
    | some found =>
      rw [(drop_of_some host answers htarget).1]
      exact hs.unique.sublist (List.filter_sublist.map _)

/-! ### Runs -/

/-- **The records correspond to the databases after each request of a run iff no request
of the run stops half-way.** -/
theorem corresponds_iff (host : Server → String) (as : List Request) :
    Along (total (handle host)) (fun s a => Corresponds (handle host s a)) .empty as ↔
      Along (total (handle host)) (Clean host) .empty as := by
  refine along_iff (I := Settled) ?_ ?_ settled_empty
  · intro s a _ t hs hcorr ht
    obtain rfl := Option.some.inj ht
    exact settled_handle host hs hcorr
  · intro s a _ hs
    exact corresponds_handle_iff host hs a

/-! ### The condition is needed -/

/-- The configured servers. -/
def hosts : Server → String
  | .mysql => "10.0.0.5"
  | .cassandra => "10.0.0.9"

/-- User 1 asks for a database "shop"; `fails` is the statement that is refused. -/
def createShop (fails : Option Statement) : CreateRequest where
  user := 1
  adapter := some "mysql"
  database := some "shop"
  socket := none
  username := "k3Jd9aQx+w0z"
  password := "uJ4mS1nB7cVxY2eLq0RtZ5pA"
  answers := fun st => some st != fails
  saved := true

/-- User 1 asks for it to be dropped, in the app of its record. -/
def dropShop : DropRequest where
  user := 1
  databaseName := some "shop"
  params := { path := some "shop" }
  applications := (App.ofSession ((createShop none).record hosts).session).toList
  database := fun a => (ownCredentials id a).map fun c => ⟨a.name.getD "", c⟩

/-- A refused `GRANT` leaves a database without a record, and so does a `DROP DATABASE`
that is refused to the user's own handle. -/
theorem databases_without_record :
    ¬ Along (total (handle hosts)) (fun s a => Corresponds (handle hosts s a)) .empty
        [.create (createShop (some .grantAnyHost))] ∧
      ¬ Along (total (handle hosts)) (fun s a => Corresponds (handle hosts s a)) .empty
        [.create (createShop none), .dropdb dropShop fun st => st != .dropDatabase] := by
  refine ⟨fun h => ?_, fun h => ?_⟩
  · have hrecord := (h.1 .mysql "shop").mp (by decide)
    exact absurd hrecord (by decide)
  · rw [along_total_cons, along_total_cons] at h
    have hrecord := (h.2.1 .mysql "shop").mp (by decide)
    exact absurd hrecord (by decide)

end BkPlatform.Labrador
