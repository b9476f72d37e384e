import BkPlatform.Lib.Mirror
import BkPlatform.Portal.Lifecycle

/-!
# The catalogue and its synchronisation

The three tables an instance is chosen from mirror lists of the cloud:
`HomeController#sync` deletes what a list does not have and updates or creates the rest,
one table after the other; a raise ends it, and what has been done stays done.

`InstancesController#create` chooses from the tables.  An instance refers to their rows
by key, and neither the schema nor an association keeps a row that is referred to.

## Main definitions

* `Db` — the tables.
* `Template.sync`, `DiskOffering.sync`, `ServiceOffering.sync`, `sync` — the
  synchronisation.
* `create` — a new instance.
* `Db.operate` — an operation on an instance of the table.
-/

namespace BkPlatform.Portal

open Eff RubyString

/-! ### The tables -/

/-- The tables of the portal, and the worker queue. -/
structure Db where
  templates : Table Template Template.id
  diskOfferings : Table DiskOffering DiskOffering.id
  serviceOfferings : Table ServiceOffering ServiceOffering.id
  instances : Table Instance Instance.id
  queue : List Job

/-- The empty portal. -/
def emptyDb : Db := ⟨.empty, .empty, .empty, .empty, []⟩

/-- The tables an instance is chosen from. -/
def Db.catalogue (db : Db) : Catalogue :=
  ⟨db.templates.rows, db.diskOfferings.rows, db.serviceOfferings.rows⟩

/-- The names of the other instances. -/
def Db.otherNames (db : Db) (id : ℕ) : List String :=
  (db.instances.rows.filter fun r => r.id != id).map Instance.name

/-! ### The lists of the cloud -/

/-- A `template` element; `created` is absent also when it is not an ISO 8601 date. -/
structure TemplateElement where
  id : Option String
  name : Option String := none
  ostypename : Option String := none
  details : Option String := none
  created : Option String := none
  deriving DecidableEq, Repr

/-- A `diskoffering` element. -/
structure DiskOfferingElement where
  id : Option String
  disksize : Option String := none
  storagetype : Option String := none
  storage : Option String := none
  created : Option String := none
  deriving DecidableEq, Repr

/-- A `serviceoffering` element. -/
structure ServiceOfferingElement where
  id : Option String
  cpunumber : Option String := none
  cpuspeed : Option String := none
  memory : Option String := none
  offerha : Option String := none
  created : Option String := none
  deriving DecidableEq, Repr

/-- `to_i`, also of nil. -/
def numberOf (s : Option String) : ℤ := (s.map toI).getD 0

/-- `to_bool`, which nil does not have. -/
def flagOf : Option String → Except Raised Bool
  | some s => .ok (toBool s)
  | none => .error .noMethodError

/-- `DateTime.iso8601`. -/
def dateOf : Option String → Except Raised String
  | some created => .ok created
  | none => .error .argumentError

/-- `templates` as a mirror.  The date is written by a creation alone, here and below. -/
def templates : Mirror Template TemplateElement Raised Template.id where
  remoteId := Template.templateId
  id := TemplateElement.id
  update e := .ok ⟨fun t =>
    { t with name := e.name, ostypename := e.ostypename, details := e.details }, fun _ => rfl⟩
  create e := do
    let created ← dateOf e.created
    pure ⟨fun n => ⟨n, e.id, e.name, e.ostypename, e.details, some created⟩, fun _ => rfl⟩

/-- `disk_offerings` as a mirror.  An update reads the storage type from another key than
a creation does. -/
def diskOfferings : Mirror DiskOffering DiskOfferingElement Raised DiskOffering.id where
  remoteId := DiskOffering.diskOfferingId
  id := DiskOfferingElement.id
  update e := .ok ⟨fun d => { d with disksize := e.disksize, storagetype := e.storage },
    fun _ => rfl⟩
  create e := do
    let created ← dateOf e.created
    pure ⟨fun n => ⟨n, e.id, e.disksize, e.storagetype, some created⟩, fun _ => rfl⟩

/-- `service_offerings` as a mirror. -/
def serviceOfferings :
    Mirror ServiceOffering ServiceOfferingElement Raised ServiceOffering.id where
  remoteId := ServiceOffering.serviceOfferingId
  id := ServiceOfferingElement.id
  update e := do
    let offerha ← flagOf e.offerha
    pure ⟨fun s => { s with cpunumber := some (numberOf e.cpunumber),
                            cpuspeed := some (numberOf e.cpuspeed),
                            memory := some (numberOf e.memory), offerha := some offerha },
      fun _ => rfl⟩
  create e := do
    let offerha ← flagOf e.offerha
    let created ← dateOf e.created
    pure ⟨fun n => ⟨n, e.id, some (numberOf e.cpunumber), some (numberOf e.cpuspeed),
      some (numberOf e.memory), some offerha, some created⟩, fun _ => rfl⟩

/-- The elements under the key of a list, `none` for a failed call or another body: an
absent key is nil, of which nothing can be read. -/
def elements {ε : Type} : Option (List ε) → Except Raised (List ε)
  | some (e :: es) => .ok (e :: es)
  | _ => .error .noMethodError

/-- A single element is a hash, whose pairs have no key `id`. -/
def severalElements {ε : Type} : Option (List ε) → Except Raised (List ε)
  | some (e :: e' :: es) => .ok (e :: e' :: es)
  | some [_] => .error .typeError
  | _ => .error .noMethodError

/-! ### The synchronisation -/

/-- A statement on one table of the database. -/
def onTable {ρ : Type} {key : ρ → ℕ} (get : Db → Table ρ key) (set : Db → Table ρ key → Db)
    (x : Eff Raised (Table ρ key) Unit) : Eff Raised Db Unit := fun db =>
  match x (get db) with
  | (out, t) => (out, set db t)

/-- `Template.sync`: a single element is wrapped. -/
def Template.sync (reply : Option (List TemplateElement)) : Eff Raised Db Unit :=
  match elements reply with
  | .error e => raise e
  | .ok es => onTable Db.templates (fun db t => { db with templates := t }) (templates.sync es)

/-- `DiskOffering.sync`. -/
def DiskOffering.sync (reply : Option (List DiskOfferingElement)) : Eff Raised Db Unit :=
  match severalElements reply with
  | .error e => raise e
  | .ok es =>
    onTable Db.diskOfferings (fun db t => { db with diskOfferings := t }) (diskOfferings.sync es)

/-- `ServiceOffering.sync`. -/
def ServiceOffering.sync (reply : Option (List ServiceOfferingElement)) : Eff Raised Db Unit :=
  match severalElements reply with
  | .error e => raise e
  | .ok es =>
    onTable Db.serviceOfferings (fun db t => { db with serviceOfferings := t })
      (serviceOfferings.sync es)

/-- The replies to the three lists. -/
structure Lists where
  templates : Option (List TemplateElement)
  diskOfferings : Option (List DiskOfferingElement)
  serviceOfferings : Option (List ServiceOfferingElement)
  deriving DecidableEq, Repr

/-- `HomeController#sync`. -/
def sync (lists : Lists) : Eff Raised Db Unit :=
  rescue (do
    Template.sync lists.templates
    DiskOffering.sync lists.diskOfferings
    ServiceOffering.sync lists.serviceOfferings) fun _ => pure ()

/-! ### Instances -/

/-- The parameters of `create`; the ids as the integer columns take them. -/
structure NewInstance where
  displayname : Option String
  templateId : Option ℕ
  diskOfferingId : Option ℕ
  serviceOfferingId : Option ℕ
  deriving DecidableEq, Repr

/-- The signed-in user as `create` sees them. -/
structure CurrentUser where
  id : ℕ
  username : Option String
  deriving DecidableEq, Repr

/-- The row `create` is about to save. -/
def NewInstance.row (user : CurrentUser) (username displayname now : String) (p : NewInstance)
    (id : ℕ) : Instance where
  id := id
  userId := some user.id
  serviceOfferingId := p.serviceOfferingId
  diskOfferingId := p.diskOfferingId
  templateId := p.templateId
  name := username ++ "-" ++ displayname
  displayname := displayname
  createdAt := some now

/-- `InstancesController#create`: a visitor who is not signed in, or has no user name, is a
method called on nil, and a missing name cannot be appended.  A row that is not valid is
not saved. -/
def create (user : Option CurrentUser) (p : NewInstance) (now : String) : Eff Raised Db Unit := do
  match user with
  | none => raise .noMethodError
  | some user =>
    match user.username, p.displayname with
    | none, _ => raise .noMethodError
    | some _, none => raise .typeError
    | some username, some displayname =>
      let db ← Eff.get
      let row := p.row user username displayname now
      if (row 0).valid db.catalogue (db.instances.rows.map Instance.name) then
        Eff.modify fun db => { db with instances := db.instances.insert row fun _ => rfl }
      else
        pure ()

/-- The world an operation runs in on a row of the table. -/
def Db.world (db : Db) (row : Instance) : World where
  row := row
  catalogue := db.catalogue
  otherNames := db.otherNames row.id
  replies := []
  ssh := []
  trace := []
  queue := db.queue

/-- An operation on the instance with this id. -/
def Db.operate (db : Db) (id : ℕ) (c : Call) : Db :=
  match db.instances.rows.find? fun r => r.id == id with
  | none => db
  | some row =>
    let w := Portal.operate (db.world row) c
    { db with
      instances := db.instances.modify (fun r => if r.id = id then { w.row with id := r.id } else r)
        fun r => by split <;> rfl
      queue := w.queue }

/-- A step of the portal. -/
inductive DbStep
  | create (user : Option CurrentUser) (p : NewInstance) (now : String)
  | sync (lists : Lists)
  | operate (id : ℕ) (c : Call)
  deriving DecidableEq, Repr

/-- One step: a raise ends it, with what it has done so far kept. -/
def dbStep (db : Db) : DbStep → Db
  | .create user p now => (run (create user p now) db).2
  | .sync lists => (run (sync lists) db).2
  | .operate id c => db.operate id c

end BkPlatform.Portal
