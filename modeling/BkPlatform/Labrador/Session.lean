import Mathlib.Data.List.Induction
import Mathlib.Data.Nat.Notation

/-!
# Connections, sessions and the session cache

A row of `database_connections` is turned into a `Session`, and the sessions of
the requesting user are passed from one call to the next through one entry of
the process-wide cache.  `Session.add` reads the entry, drops the sessions of
the same name and writes it back; reading and writing are separate accesses.

## Main definitions

* `Attributes` — a Ruby hash with string and symbol keys.
* `DatabaseConnection`, `Session` — a row, and a session made from one.
* `Cache`, `active`, `keep`, `store` — the cache entry and the accesses to it.

## Main results

* `new_toHash` — **a session survives the cache.**
* `mem_active_addAll`, `mem_active_of_unique` — what the cache holds after a
  user's connections have been added one after the other.
-/

namespace BkPlatform.Labrador

/-! ### Hashes -/

/-- A key of a hash. -/
inductive Key
  | str (s : String)
  | sym (s : String)
  deriving DecidableEq, Repr

@[simp] theorem Key.str_beq_str (a b : String) : (Key.str a == Key.str b) = (a == b) := by
  rw [Bool.eq_iff_iff, beq_iff_eq, beq_iff_eq, Key.str.injEq]

@[simp] theorem Key.sym_beq_sym (a b : String) : (Key.sym a == Key.sym b) = (a == b) := by
  rw [Bool.eq_iff_iff, beq_iff_eq, beq_iff_eq, Key.sym.injEq]

@[simp] theorem Key.str_beq_sym (a b : String) : (Key.str a == Key.sym b) = false := rfl

@[simp] theorem Key.sym_beq_str (a b : String) : (Key.sym a == Key.str b) = false := rfl

/-- A hash whose values are strings or nil. -/
abbrev Attributes := List (Key × Option String)

/-- `attributes["name"] || attributes[:name]`. -/
def Attributes.attribute (attributes : Attributes) (name : String) : Option String :=
  (attributes.lookup (.str name)).join.or (attributes.lookup (.sym name)).join

/-! ### Rows and sessions -/

/-- A row of the `database_connections` table. -/
structure DatabaseConnection where
  id : ℕ
  userId : Option ℕ
  adapter : String
  name : String
  host : String
  database : Option String
  username : Option String
  password : Option String
  socket : Option String
  deriving DecidableEq, Repr

/-- `db.attributes.except(…).symbolize_keys`. -/
def DatabaseConnection.dbParams (db : DatabaseConnection) : Attributes :=
  [(.sym "adapter", some db.adapter), (.sym "name", some db.name), (.sym "host", some db.host),
   (.sym "database", db.database), (.sym "username", db.username),
   (.sym "password", db.password), (.sym "socket", db.socket)]

/-- A session. -/
structure Session where
  adapter : Option String
  name : Option String
  host : Option String
  username : Option String
  database : Option String
  password : Option String
  socket : Option String
  deriving DecidableEq, Repr

/-- `Session#initialize`. -/
def Session.new (attributes : Attributes) : Session where
  adapter := attributes.attribute "adapter"
  name := attributes.attribute "name"
  host := attributes.attribute "host"
  username := attributes.attribute "username"
  database := attributes.attribute "database"
  password := attributes.attribute "password"
  socket := attributes.attribute "socket"

/-- `Session#to_hash`. -/
def Session.toHash (s : Session) : Attributes :=
  [(.str "adapter", s.adapter), (.str "name", s.name), (.str "host", s.host),
   (.str "username", s.username), (.str "database", s.database),
   (.str "password", s.password), (.str "socket", s.socket)]

/-- The session of a row. -/
def DatabaseConnection.session (db : DatabaseConnection) : Session := Session.new db.dbParams

/-- **A session survives the cache**: it is written with string keys and read back. -/
@[simp] theorem new_toHash (s : Session) : Session.new s.toHash = s := by
  cases s
  simp [Session.new, Session.toHash, Attributes.attribute, List.lookup_cons]

/-- A row's session has the columns of the row. -/
theorem session_eq (db : DatabaseConnection) :
    db.session = ⟨some db.adapter, some db.name, some db.host, db.username, db.database,
      db.password, db.socket⟩ := by
  simp [DatabaseConnection.session, Session.new, DatabaseConnection.dbParams,
    Attributes.attribute, List.lookup_cons]

theorem session_name (db : DatabaseConnection) : db.session.name = some db.name := by
  rw [session_eq]

/-! ### The cache entry -/

/-- The value under the key `:sessions`. -/
abbrev Cache := Option (List Attributes)

/-- `Session.active`: read the entry. -/
def active (cache : Cache) : List Session := (cache.getD []).map Session.new

/-- The sessions `Session.add` keeps of those it has read. -/
def keep (sessions : List Session) (new : Session) : List Session :=
  sessions.filter fun s => s.name ≠ new.name

/-- The write that ends `Session.add`. -/
def store (kept : List Session) (new : Session) : Cache :=
  some ((kept ++ [new]).map Session.toHash)

/-- `Session.add`, when nothing happens between its read and its write. -/
def add (cache : Cache) (new : Session) : Cache := store (keep (active cache) new) new

/-- The entry after `clear_all` and an `add` for each of the rows. -/
def addAll (rows : List DatabaseConnection) : Cache :=
  rows.foldl (fun cache db => add cache db.session) none

@[simp] theorem active_store (kept : List Session) (new : Session) :
    active (store kept new) = kept ++ [new] := by
  simp [active, store, Function.comp_def]

theorem addAll_snoc (rows : List DatabaseConnection) (db : DatabaseConnection) :
    addAll (rows ++ [db]) = add (addAll rows) db.session := by
  simp [addAll]

theorem active_addAll_snoc (rows : List DatabaseConnection) (db : DatabaseConnection) :
    active (addAll (rows ++ [db])) = keep (active (addAll rows)) db.session ++ [db.session] := by
  rw [addAll_snoc, add, active_store]

/-- Every session in the cache is that of one of the rows. -/
theorem mem_active_addAll {rows : List DatabaseConnection} {s : Session}
    (h : s ∈ active (addAll rows)) : ∃ db ∈ rows, db.session = s := by
  induction rows using List.reverseRecOn with
  | nil => simp [addAll, active] at h
  | append_singleton rows db ih =>
    rw [active_addAll_snoc, List.mem_append, List.mem_singleton] at h
    rcases h with hkept | rfl
    · -- kept from before the last `add`
      obtain ⟨db', hdb', hs⟩ := ih (List.mem_filter.mp hkept).1
      exact ⟨db', List.mem_append_left _ hdb', hs⟩
    · exact ⟨db, by simp, rfl⟩

/-- Every session in the cache has a name. -/
theorem isSome_name_of_mem {rows : List DatabaseConnection} {s : Session}
    (h : s ∈ active (addAll rows)) : s.name.isSome = true := by
  obtain ⟨db, -, rfl⟩ := mem_active_addAll h
  rw [session_name]
  rfl

/-- The session of a row whose name no other of the rows has is in the cache. -/
theorem mem_active_of_unique {rows : List DatabaseConnection} {db : DatabaseConnection}
    (hdb : db ∈ rows) (hunique : ∀ db' ∈ rows, db'.name = db.name → db' = db) :
    db.session ∈ active (addAll rows) := by
  induction rows using List.reverseRecOn with
  | nil => simp at hdb
  | append_singleton rows last ih =>
    rw [active_addAll_snoc, List.mem_append, List.mem_singleton]
    by_cases hname : last.name = db.name
    · -- the last row is this one: its own `add` has put the session there
      right
      rw [hunique last (by simp) hname]
    · -- it has another name, so its `add` keeps the session
      left
      have hin : db ∈ rows := by
        rcases List.mem_append.mp hdb with hin | hlast
        · exact hin
        · exact absurd (congrArg DatabaseConnection.name (List.mem_singleton.mp hlast).symm) hname
      refine List.mem_filter.mpr ⟨ih hin fun db' hdb' => hunique db' (by simp [hdb']), ?_⟩
      rw [session_name, session_name]
      simpa using Ne.symm hname

end BkPlatform.Labrador
