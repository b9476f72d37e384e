import BkPlatform.Lib.Run
import BkPlatform.Labrador.Session
import Mathlib.Logic.Function.Basic

/-!
# Adapters and the cache of open sessions

An adapter opens a session with its own credentials, and puts it into a cache of
the class, `@@connections`, under its name and the database string of its
configuration.  A later `connect` of any adapter with the same name and database
string is handed the cached session as long as that is alive: host, user,
password and, for a relative sqlite path, the application are not part of the
key.  So an adapter is handed its own session in every run exactly as long as it
never finds a live session of other credentials (`handsOutOwn_iff`).

`File.expand_path` depends on the working directory and the home directories; it
is a parameter.

## Main definitions

* `Adapter`, `credentials`, `sqliteCredentials`, `ownCredentials` — an adapter.
* `Process`, `ConnectStep`, `connectStep` — `connect` and `disconnect` in one process.
* `HandsOutOwn` — the session `connect` returns was opened with own credentials.
* `OwnCached` — the live session found in the cache was.

## Main results

* `handsOutOwn_iff` — **the first holds throughout a run iff the second does.**
* `ownCached_of_compatible` — both hold if adapters of one name and database string
  have the same credentials.
-/

namespace BkPlatform.Labrador

open Run

/-! ### Adapters -/

/-- `configuration["key"]`. -/
def Attributes.value (attributes : Attributes) (key : String) : Option String :=
  (attributes.lookup (.str key)).join

/-- The credentials a store is opened with. -/
structure Credentials where
  host : Option String
  user : Option String
  database : Option String
  password : Option String
  socket : Option String
  deriving DecidableEq, Repr

/-- An adapter: its configuration, nil if its file has none, and the path of its app. -/
structure Adapter where
  configuration : Option Attributes
  appPath : String
  deriving DecidableEq, Repr

/-- `Adapter#name`. -/
def Adapter.name (a : Adapter) : Option String := a.configuration.bind fun c => c.value "adapter"

/-- `Adapter#db_name`. -/
def Adapter.dbName (a : Adapter) : Option String := a.configuration.bind fun c => c.value "database"

/-- The keys of `@@connections`. -/
def connectionNames : List String :=
  ["mongodb", "postgresql", "mysql", "mysql2", "sqlite", "sqlite2", "sqlite3", "rethinkdb"]

/-- `/^sqlite(2|3)?$/`, on the keys of `@@connections`. -/
def isSqlite (name : String) : Bool := ["sqlite", "sqlite2", "sqlite3"].contains name

/-- `Adapter#credentials`. -/
def credentials (configuration : Attributes) : Credentials where
  host := configuration.value "host"
  user := configuration.value "username"
  database := configuration.value "database"
  password := configuration.value "password"
  socket := configuration.value "socket"

/-- `Adapter#sqlite_credentials`; a missing database is a method called on nil. -/
def sqliteCredentials (expandPath : String → String) (appPath : String)
    (configuration : Attributes) : Option Credentials :=
  (configuration.value "database").map fun database =>
    let dbPath :=
      if database.toList.head? = some '/' then database
      else expandPath (appPath ++ "/" ++ database)
    { credentials configuration with database := some dbPath }

/-- The credentials `connect` opens a session with. -/
def ownCredentials (expandPath : String → String) (a : Adapter) : Option Credentials :=
  match a.configuration, a.name with
  | some configuration, some name =>
    if isSqlite name then sqliteCredentials expandPath a.appPath configuration
    else some (credentials configuration)
  | _, _ => none

/-! ### One process -/

/-- A session that has been opened. -/
structure Opened where
  credentials : Credentials
  /-- What `connected?` of the store answers. -/
  connected : Bool
  deriving DecidableEq, Repr

/-- The state of a process: the class variable, all sessions opened so far, and the
`@database` and `@errors` of each adapter. -/
structure Process (ι : Type*) where
  connections : String × Option String → Option ℕ
  sessions : List Opened
  database : ι → Option ℕ
  errors : ι → List String

/-- One call; a session that has to be opened may fail with a message.  Between the
calls the server may drop a session or answer it again. -/
inductive ConnectStep (ι : Type*)
  | connect (i : ι) (failure : Option String)
  | disconnect (i : ι)
  | link (n : ℕ) (connected : Bool)

variable {ι : Type*}

/-- The session with this number. -/
def Process.session (s : Process ι) (n : Option ℕ) : Option Opened := n.bind fun n => s.sessions[n]?

/-- `database && database.connected?`. -/
def Process.connected (s : Process ι) (n : Option ℕ) : Bool :=
  (s.session n).any fun o => o.connected

variable [DecidableEq ι]

/-- `@database = …`. -/
def Process.setDatabase (s : Process ι) (i : ι) (n : Option ℕ) : Process ι :=
  { s with database := Function.update s.database i n }

/-- `@@connections[name][db_name] = …`. -/
def Process.cache (s : Process ι) (key : String × Option String) (n : Option ℕ) : Process ι :=
  { s with connections := Function.update s.connections key n }

/-- `add_error`. -/
def Process.addError (s : Process ι) (i : ι) (message : String) : Process ι :=
  { s with errors := Function.update s.errors i (s.errors i ++ [message]) }

/-- A new session of the given credentials. -/
def Process.open (s : Process ι) (c : Credentials) : Process ι :=
  { s with sessions := s.sessions ++ [⟨c, true⟩] }

/-- The part of `connect` between `begin` and `end`, and the write to the cache. -/
def openSession (expandPath : String → String) (adapter : ι → Adapter) (s : Process ι) (i : ι)
    (key : String × Option String) (failure : Option String) : Process ι :=
  match failure, ownCredentials expandPath (adapter i) with
  | none, some c =>
    let n := some s.sessions.length
    (((s.open c).setDatabase i n).cache key n)
  | some message, _ => (s.addError i message).cache key (s.database i)
  | none, none => (s.addError i "undefined method chars for nil").cache key (s.database i)

/-- The key of an adapter in `@@connections`, if it has one. -/
def Adapter.key (a : Adapter) : Option (String × Option String) :=
  match a.name with
  | some name => if connectionNames.contains name then some (name, a.dbName) else none
  | none => none

/-- `connect`.  An adapter whose name is not a key of `@@connections` raises before it
has changed anything. -/
def connect (expandPath : String → String) (adapter : ι → Adapter) (s : Process ι) (i : ι)
    (failure : Option String) : Process ι :=
  match (adapter i).key with
  | none => s
  | some key =>
    let cached := s.connections key
    let s := s.setDatabase i cached
    if s.connected cached then s else openSession expandPath adapter s i key failure

/-- Close the session with this number. -/
def Process.setConnected (s : Process ι) (n : ℕ) (connected : Bool) : Process ι :=
  { s with sessions := s.sessions.modify n fun o => { o with connected := connected } }

/-- `disconnect`. -/
def disconnect (adapter : ι → Adapter) (s : Process ι) (i : ι) : Process ι :=
  let s :=
    match s.database i with
    | some n => if s.connected (some n) then s.setConnected n false else s
    | none => s
  match (adapter i).key with
  | none => s
  | some key => s.cache key none

/-- One step of the process. -/
def connectStep (expandPath : String → String) (adapter : ι → Adapter) (s : Process ι) :
    ConnectStep ι → Process ι
  | .connect i failure => connect expandPath adapter s i failure
  | .disconnect i => disconnect adapter s i
  | .link n connected => s.setConnected n connected

/-- The process before any call. -/
def freshProcess (ι : Type*) : Process ι := ⟨fun _ => none, [], fun _ => none, fun _ => []⟩

/-! ### Whose session is handed out -/

section Own

variable (expandPath : String → String) (adapter : ι → Adapter)

/-- After a `connect` the adapter's session, if it is connected, was opened with the
adapter's own credentials. -/
def HandsOutOwn (s : Process ι) : ConnectStep ι → Prop
  | .connect i failure =>
    let t := connect expandPath adapter s i failure
    ∀ o, t.session (t.database i) = some o → o.connected = true →
      some o.credentials = ownCredentials expandPath (adapter i)
  | _ => True

/-- The session cached under the key of the adapter, if it is alive, was opened with the
adapter's own credentials. -/
def OwnCached (s : Process ι) : ConnectStep ι → Prop
  | .connect i _ => ∀ key, (adapter i).key = some key →
    ∀ o, s.session (s.connections key) = some o → o.connected = true →
      some o.credentials = ownCredentials expandPath (adapter i)
  | _ => True

end Own

variable {expandPath : String → String} {adapter : ι → Adapter}

omit [DecidableEq ι] in
theorem connected_iff {s : Process ι} {n : Option ℕ} :
    s.connected n = true ↔ ∃ o, s.session n = some o ∧ o.connected = true := by
  rw [Process.connected, Option.any_eq_true]

omit [DecidableEq ι] in
/-- The session opened last. -/
theorem session_open (s : Process ι) (c : Credentials) :
    (s.open c).session (some s.sessions.length) = some ⟨c, true⟩ := by
  simp [Process.session, Process.open]

variable (expandPath adapter) in
/-- What `connect` does: nothing for an adapter without a key; else it takes the cached
session, and opens and caches one of its own if that is not alive. -/
theorem connect_cases (s : Process ι) (i : ι) (failure : Option String) :
    ((adapter i).key = none ∧ connect expandPath adapter s i failure = s) ∨
    ∃ key, (adapter i).key = some key ∧
      ((s.connected (s.connections key) = true ∧
          connect expandPath adapter s i failure = s.setDatabase i (s.connections key)) ∨
        (s.connected (s.connections key) = false ∧
          ((∃ c, ownCredentials expandPath (adapter i) = some c ∧
              connect expandPath adapter s i failure =
                ((s.open c).setDatabase i (some s.sessions.length)).cache key
                  (some s.sessions.length)) ∨
            ∃ errors, connect expandPath adapter s i failure =
              { (s.setDatabase i (s.connections key)) with errors := errors }))) := by
  cases hkey : (adapter i).key with
  | none => exact Or.inl ⟨rfl, by simp [connect, hkey]⟩
  | some key =>
    refine Or.inr ⟨key, rfl, ?_⟩
    -- setting `@database` changes neither the cache nor the sessions
    have hset : (s.setDatabase i (s.connections key)).connected (s.connections key) =
        s.connected (s.connections key) := rfl
    have hback : ∀ errors : ι → List String,
        ({ (s.setDatabase i (s.connections key)) with errors := errors } : Process ι).cache key
          ((s.setDatabase i (s.connections key)).database i) =
        { (s.setDatabase i (s.connections key)) with errors := errors } := by
      intro errors
      simp [Process.cache, Process.setDatabase]
    cases hlive : s.connected (s.connections key) with
    | true => exact Or.inl ⟨rfl, by simp [connect, hkey, hset, hlive]⟩
    | false =>
      refine Or.inr ⟨rfl, ?_⟩
      have hopen : connect expandPath adapter s i failure =
          openSession expandPath adapter (s.setDatabase i (s.connections key)) i key failure := by
        simp [connect, hkey, hset, hlive]
      rw [hopen]
      cases failure with
      | some message => exact Or.inr ⟨_, hback _⟩
      | none =>
        cases hown : ownCredentials expandPath (adapter i) with
        | none =>
          -- a sqlite adapter without a database: rescued like any other failure
          right
          have hraise : openSession expandPath adapter (s.setDatabase i (s.connections key)) i key
              none = ((s.setDatabase i (s.connections key)).addError i
                "undefined method chars for nil").cache key
                ((s.setDatabase i (s.connections key)).database i) := by
            simp only [openSession, hown]
          exact ⟨_, hraise.trans (hback _)⟩
        | some c =>
          left
          refine ⟨c, rfl, ?_⟩
          simp [openSession, hown, Process.open, Process.setDatabase]

/-- An adapter without a key never has a session. -/
def KeyedOnly (adapter : ι → Adapter) (s : Process ι) : Prop :=
  ∀ i, (adapter i).key = none → s.database i = none

theorem KeyedOnly.step {s : Process ι} (h : KeyedOnly adapter s) (a : ConnectStep ι) :
    KeyedOnly adapter (connectStep expandPath adapter s a) := by
  intro j hj
  cases a with
  | link n connected => exact h j hj
  | disconnect i =>
    have hsame : (connectStep expandPath adapter s (.disconnect i)).database = s.database := by
      simp only [connectStep, disconnect]
      split <;> split <;> first | rfl | (split <;> rfl)
    rw [hsame]
    exact h j hj
  | connect i failure =>
    rcases connect_cases expandPath adapter s i failure with
      ⟨-, heq⟩ | ⟨key, hkey, ⟨-, heq⟩ | ⟨-, ⟨c, -, heq⟩ | ⟨errors, heq⟩⟩⟩
    · rw [connectStep, heq]
      exact h j hj
    -- the call was of another adapter, one with a key
    all_goals
      have hne : j ≠ i := by
        rintro rfl
        rw [hkey] at hj
        exact absurd hj (by simp)
      rw [connectStep, heq]
      simpa [Process.cache, Process.setDatabase, Process.open, Function.update_of_ne hne]
        using h j hj

/-- **One call hands out its own session iff the live session it finds is its own.** -/
theorem handsOutOwn_step {s : Process ι} (h : KeyedOnly adapter s) (a : ConnectStep ι) :
    HandsOutOwn expandPath adapter s a ↔ OwnCached expandPath adapter s a := by
  cases a with
  | link n connected => exact Iff.rfl
  | disconnect i => exact Iff.rfl
  | connect i failure =>
    simp only [HandsOutOwn, OwnCached]
    rcases connect_cases expandPath adapter s i failure with
      ⟨hkey, heq⟩ | ⟨key, hkey, hcases⟩
    · rw [heq, h i hkey]
      simp [Process.session, hkey]
    · have hcached : (∀ key', (adapter i).key = some key' → ∀ o,
          s.session (s.connections key') = some o → o.connected = true →
            some o.credentials = ownCredentials expandPath (adapter i)) ↔
          ∀ o, s.session (s.connections key) = some o → o.connected = true →
            some o.credentials = ownCredentials expandPath (adapter i) := by
        constructor
        · exact fun hall => hall key hkey
        · intro hone key' hkey'
          obtain rfl : key = key' := Option.some.inj (hkey.symm.trans hkey')
          exact hone
      rw [hcached]
      rcases hcases with ⟨-, heq⟩ | ⟨hdead, hcases⟩
      · -- the cached session is alive and is handed out
        have hdb : (s.setDatabase i (s.connections key)).database i = s.connections key := by
          simp [Process.setDatabase]
        rw [heq, hdb]
        rfl
      · -- the cached session is not alive, so nothing is asked of it
        have hnone : ∀ o, s.session (s.connections key) = some o → ¬ o.connected = true := by
          intro o ho hconn
          have hlive := connected_iff.mpr ⟨o, ho, hconn⟩
          rw [hdead] at hlive
          exact absurd hlive (by decide)
        refine ⟨fun _ o ho hconn => absurd hconn (hnone o ho), fun _ => ?_⟩
        rcases hcases with ⟨c, hown, heq⟩ | ⟨errors, heq⟩
        · -- a session of its own has been opened
          intro o ho _
          rw [heq] at ho
          have hdb : (((s.open c).setDatabase i (some s.sessions.length)).cache key
              (some s.sessions.length)).database i = some s.sessions.length := by
            simp [Process.cache, Process.setDatabase]
          rw [hdb] at ho
          have hnew : o = ⟨c, true⟩ := Option.some.inj (ho.symm.trans (session_open s c))
          rw [hnew, hown]
        · -- it could not be opened, and the dead one stays
          intro o ho hconn
          rw [heq] at ho
          have hdb : ({ (s.setDatabase i (s.connections key)) with errors := errors } :
              Process ι).database i = s.connections key := by
            simp [Process.setDatabase]
          rw [hdb] at ho
          exact absurd hconn (hnone o ho)

/-- **In a run from a fresh process every `connect` hands out a session of its own
credentials iff no `connect` finds a live session of other ones in the cache.** -/
theorem handsOutOwn_iff (steps : List (ConnectStep ι)) :
    Along (total (connectStep expandPath adapter)) (HandsOutOwn expandPath adapter)
        (freshProcess ι) steps ↔
      Along (total (connectStep expandPath adapter)) (OwnCached expandPath adapter)
        (freshProcess ι) steps := by
  refine along_iff (I := KeyedOnly adapter) ?_ ?_ fun i _ => rfl
  · intro s a _ t h _ ht
    obtain rfl := Option.some.inj ht
    exact h.step a
  · exact fun s a _ h => handsOutOwn_step h a

/-! ### Adapters of equal credentials -/

/-- Every cached session was opened with the credentials of an adapter of its key. -/
def Filed (expandPath : String → String) (adapter : ι → Adapter) (s : Process ι) : Prop :=
  ∀ key n, s.connections key = some n → ∃ o, s.sessions[n]? = some o ∧
    ∃ i, (adapter i).key = some key ∧ some o.credentials = ownCredentials expandPath (adapter i)

omit [DecidableEq ι] in
/-- Closing a session, or hearing of its link, keeps the credentials. -/
theorem Filed.setConnected {s : Process ι} (h : Filed expandPath adapter s) (n : ℕ)
    (connected : Bool) : Filed expandPath adapter (s.setConnected n connected) := by
  intro key m hm
  obtain ⟨o, ho, hi⟩ := h key m hm
  by_cases hnm : n = m
  · refine ⟨{ o with connected := connected }, ?_, hi⟩
    simp [Process.setConnected, ho, hnm]
  · refine ⟨o, ?_, hi⟩
    simp [Process.setConnected, ho, hnm]

omit [DecidableEq ι] in
/-- The other keys of the cache. -/
theorem cache_of_ne {s : Process ι} {key key' : String × Option String} (h : key' ≠ key)
    (n : Option ℕ) : (s.cache key n).connections key' = s.connections key' :=
  Function.update_of_ne h _ _

omit [DecidableEq ι] in
/-- Forgetting a key keeps the others filed. -/
theorem Filed.forget {s : Process ι} (h : Filed expandPath adapter s)
    (key : String × Option String) : Filed expandPath adapter (s.cache key none) := by
  intro key' n hn
  by_cases hkey : key' = key
  · simp [Process.cache, hkey] at hn
  · rw [cache_of_ne hkey] at hn
    exact h key' n hn

theorem Filed.step {s : Process ι} (h : Filed expandPath adapter s) (a : ConnectStep ι) :
    Filed expandPath adapter (connectStep expandPath adapter s a) := by
  cases a with
  | link n connected => exact h.setConnected n connected
  | disconnect i =>
    have hclosed : ∀ s : Process ι, Filed expandPath adapter s →
        Filed expandPath adapter (match (adapter i).key with
          | none => s
          | some key => s.cache key none) := by
      intro s hs
      split
      · exact hs
      · exact hs.forget _
    apply hclosed
    split
    · split
      · exact h.setConnected _ false
      · exact h
    · exact h
  | connect i failure =>
    rcases connect_cases expandPath adapter s i failure with
      ⟨-, heq⟩ | ⟨key, hkey, ⟨-, heq⟩ | ⟨-, ⟨c, hown, heq⟩ | ⟨errors, heq⟩⟩⟩
    · rw [connectStep, heq]
      exact h
    · rw [connectStep, heq]
      exact h
    · rw [connectStep, heq]
      intro key' n hn
      by_cases hkey' : key' = key
      · -- the entry just written
        obtain rfl : s.sessions.length = n := by
          simpa [Process.cache, Process.setDatabase, hkey'] using hn
        refine ⟨⟨c, true⟩, session_open s c, i, ?_, hown.symm⟩
        rw [hkey', hkey]
      · -- the sessions opened before keep their numbers
        rw [cache_of_ne hkey'] at hn
        obtain ⟨o, ho, hi⟩ := h key' n hn
        refine ⟨o, ?_, hi⟩
        have hlt : n < s.sessions.length := (List.getElem?_eq_some_iff.mp ho).1
        show (s.sessions ++ [⟨c, true⟩])[n]? = some o
        rw [List.getElem?_append_left hlt, ho]
    · rw [connectStep, heq]
      exact h

/-- **If adapters of one name and database string have equal credentials, every
`connect` hands out a session of its own.** -/
theorem ownCached_of_compatible
    (hcompatible : ∀ i j key, (adapter i).key = some key → (adapter j).key = some key →
      ownCredentials expandPath (adapter i) = ownCredentials expandPath (adapter j))
    (steps : List (ConnectStep ι)) :
    Along (total (connectStep expandPath adapter)) (OwnCached expandPath adapter)
      (freshProcess ι) steps := by
  have htrue : Along (total (connectStep expandPath adapter)) (fun _ _ => True)
      (freshProcess ι) steps := along_total_of_forall (fun _ _ => trivial) _
  refine (along_iff (I := Filed expandPath adapter) ?_ ?_ ?_).mp htrue
  · intro s a _ t h _ ht
    obtain rfl := Option.some.inj ht
    exact h.step a
  · intro s a _ h
    refine ⟨fun _ => ?_, fun _ => trivial⟩
    cases a with
    | link n connected => trivial
    | disconnect i => trivial
    | connect i failure =>
      intro key hkey o ho _
      cases hcached : s.connections key with
      | none => simp [hcached, Process.session] at ho
      | some n =>
        obtain ⟨o', ho', j, hj, hown⟩ := h key n hcached
        rw [hcached] at ho
        obtain rfl : o' = o := Option.some.inj (ho'.symm.trans ho)
        rw [hown, hcompatible i j key hkey hj]
  · exact fun key n hn => absurd hn (by simp [freshProcess])

/-! ### The condition is needed -/

/-- Two connections of different users to databases of the same name. -/
def twoShops : Bool → Adapter := fun second =>
  let user := if second then "bui" else "an"
  ⟨some [(.str "adapter", some "mysql"), (.str "host", some "10.0.0.5"),
    (.str "username", some user), (.str "password", some (user ++ "-secret")),
    (.str "database", some "shop"), (.str "socket", none)], "shop"⟩

/-- The second adapter is handed the session opened with the first one's password. -/
theorem session_of_first_handed_to_second :
    let t := [ConnectStep.connect false none, .connect true none].foldl
      (connectStep id twoShops) (freshProcess Bool)
    (t.session (t.database true)).map (fun o => (o.connected, o.credentials.password)) =
        some (true, some "an-secret") ∧
      ¬ Along (total (connectStep id twoShops)) (HandsOutOwn id twoShops) (freshProcess Bool)
        [.connect false none, .connect true none] := by
  refine ⟨by decide, fun halong => ?_⟩
  have hsecond := halong.2 _ rfl
  have hown := hsecond.1 ⟨credentials ((twoShops false).configuration.getD []), true⟩
    (by decide) rfl
  exact absurd hown (by decide)

end BkPlatform.Labrador
