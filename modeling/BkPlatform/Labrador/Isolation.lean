import BkPlatform.Labrador.App

/-!
# Concurrent requests over the shared session cache

`find_applications` passes the sessions of the requesting user through the one
cache entry `:sessions`: it clears the entry, reads and writes it once for each
connection of the user, and reads it at the end.  Every request does so, on the
same entry; a request that runs between two accesses of another one leaves its
own user's sessions there, or takes the other's away.

A request that finds the entry at each of its reads as it has itself left it
ends with its own user's connections (`isolated_of_undisturbed`), whatever the
others do in between.

## Main definitions

* `Stage`, `Site`, `requestStep` — the requests and their cache accesses.
* `Isolated` — the list is that of the requesting user.
* `Undisturbed` — a read finds the entry as the request has left it.

## Main results

* `isolated_of_undisturbed` — **undisturbed requests are isolated.**
* `along_alone` — a request without another one in between is undisturbed.
-/

namespace BkPlatform.Labrador

open Run

variable {ι : Type*}

/-! ### Requests -/

/-- How far a request has come. -/
inductive Stage
  /-- Before `clear_all`. -/
  | start
  /-- The rows in `done` have been added, those in `todo` are to come. -/
  | adding (done todo : List DatabaseConnection)
  /-- `add` has read the entry for `db` and kept some of its sessions. -/
  | hasRead (done : List DatabaseConnection) (kept : List Session) (db : DatabaseConnection)
      (todo : List DatabaseConnection)
  /-- `@applications` is set, or an exception has been raised. -/
  | finished (applications : Option (List App))
  deriving DecidableEq

/-- What does not change: the table, the users the requests come from, and the
application directories each request finds. -/
structure Setting (ι : Type*) where
  table : List DatabaseConnection
  currentUser : ι → ℕ
  dirs : ι → List AppDir

/-- The cache entry and the requests. -/
structure Site (ι : Type*) where
  cache : Cache
  stage : ι → Stage

/-- `current_user.database_connections`. -/
def Setting.databaseConnections (σ : Setting ι) (i : ι) : List DatabaseConnection :=
  σ.table.filter fun db => db.userId == some (σ.currentUser i)

section Steps

variable [DecidableEq ι]

/-- Request `i` moves on. -/
def Site.put (s : Site ι) (i : ι) (stage : Stage) : Site ι :=
  { s with stage := Function.update s.stage i stage }

/-- The next cache access of request `i`. -/
def requestStep (σ : Setting ι) (s : Site ι) (i : ι) : Option (Site ι) :=
  match s.stage i with
  | .start => some ({ s with cache := none }.put i (.adding [] (σ.databaseConnections i)))
  | .adding _ [] =>
    let fromSessions := findAllFromSessions (active s.cache)
    some (s.put i (.finished (fromSessions.map fun apps => findAllFromPath (σ.dirs i) ++ apps)))
  | .adding done (db :: todo) =>
    some (s.put i (.hasRead done (keep (active s.cache) db.session) db todo))
  | .hasRead done kept db todo =>
    some ({ s with cache := store kept db.session }.put i (.adding (done ++ [db]) todo))
  | .finished _ => none

@[simp] theorem Site.put_stage_self (s : Site ι) (i : ι) (stage : Stage) :
    (s.put i stage).stage i = stage := Function.update_self ..

theorem Site.put_stage_of_ne (s : Site ι) {i j : ι} (hij : i ≠ j) (stage : Stage) :
    (s.put j stage).stage i = s.stage i := Function.update_of_ne hij _ _

@[simp] theorem Site.put_cache (s : Site ι) (i : ι) (stage : Stage) :
    (s.put i stage).cache = s.cache := rfl

/-- **What a request can do**: clear the entry, read it for the last time, read it for an `add`,
and write it. -/
theorem requestStep_cases {σ : Setting ι} {s t : Site ι} {i : ι}
    (hstep : requestStep σ s i = some t) :
    (s.stage i = .start ∧
      t = { s with cache := none }.put i (.adding [] (σ.databaseConnections i))) ∨
    (∃ done, s.stage i = .adding done [] ∧
      t = s.put i (.finished ((findAllFromSessions (active s.cache)).map fun apps =>
        findAllFromPath (σ.dirs i) ++ apps))) ∨
    (∃ done db todo, s.stage i = .adding done (db :: todo) ∧
      t = s.put i (.hasRead done (keep (active s.cache) db.session) db todo)) ∨
    (∃ done kept db todo, s.stage i = .hasRead done kept db todo ∧
      t = { s with cache := store kept db.session }.put i (.adding (done ++ [db]) todo)) := by
  simp only [requestStep] at hstep
  split at hstep
  · next hstage => exact Or.inl ⟨hstage, (Option.some.inj hstep).symm⟩
  · next done hstage =>
    exact Or.inr (Or.inl ⟨done, hstage, (Option.some.inj hstep).symm⟩)
  · next done db todo hstage =>
    exact Or.inr (Or.inr (Or.inl ⟨done, db, todo, hstage, (Option.some.inj hstep).symm⟩))
  · next done kept db todo hstage =>
    exact Or.inr (Or.inr (Or.inr ⟨done, kept, db, todo, hstage, (Option.some.inj hstep).symm⟩))
  · cases hstep

end Steps

/-- The list contains sessions of the given rows only, and the session of each row whose
name no other of them has. -/
structure Isolated (rows : List DatabaseConnection) (apps : List App) : Prop where
  belongs : ∀ app ∈ apps, ∀ s, app.session = some s → ∃ db ∈ rows, db.session = s
  complete : ∀ db ∈ rows, (∀ db' ∈ rows, db'.name = db.name → db' = db) →
    ∃ app ∈ apps, app.session = some db.session

/-- Where request `i` is about to read, it finds the entry as it has left it. -/
def Undisturbed (s : Site ι) (i : ι) : Prop :=
  ∀ done todo, s.stage i = .adding done todo → s.cache = addAll done

/-! ### Isolation -/

/-- The applications of a user's own sessions. -/
theorem isolated_addAll (rows : List DatabaseConnection) (dirs : List AppDir) :
    ∃ apps, findAllFromSessions (active (addAll rows)) = some apps ∧
      Isolated rows (findAllFromPath dirs ++ apps) := by
  have hnamed : ∀ s ∈ active (addAll rows), s.name.isSome = true := fun s => isSome_name_of_mem
  obtain ⟨apps, happs, hsessions⟩ := findAllFromSessions_eq_some hnamed
  refine ⟨apps, happs, fun app happ s hs => ?_, fun db hdb hunique => ?_⟩
  · rcases List.mem_append.mp happ with hdisk | happ
    · -- an application on disk has no session
      obtain ⟨d, -, rfl⟩ := List.mem_map.mp hdisk
      exact absurd hs (by simp)
    · have hmem : some s ∈ (active (addAll rows)).map some := by
        rw [← hsessions, ← hs]
        exact List.mem_map_of_mem happ
      obtain ⟨s', hs', heq⟩ := List.mem_map.mp hmem
      obtain rfl := Option.some.inj heq
      exact mem_active_addAll hs'
  · have hmem : some db.session ∈ apps.map App.session := by
      rw [hsessions]
      exact List.mem_map_of_mem (mem_active_of_unique hdb hunique)
    obtain ⟨app, happ, hs⟩ := List.mem_map.mp hmem
    exact ⟨app, List.mem_append_right _ happ, hs⟩

/-- What is known of a request whose reads have been undisturbed so far. -/
def OnCourse (σ : Setting ι) (i : ι) : Stage → Prop
  | .start => True
  | .adding done todo => done ++ todo = σ.databaseConnections i
  | .hasRead done kept db todo =>
    done ++ db :: todo = σ.databaseConnections i ∧
      kept = keep (active (addAll done)) db.session
  | .finished applications =>
    ∃ apps, applications = some apps ∧ Isolated (σ.databaseConnections i) apps

variable [DecidableEq ι]

/-- A step of another request leaves this one where it is. -/
theorem stage_of_ne {σ : Setting ι} {s t : Site ι} {i j : ι} (hij : i ≠ j)
    (hstep : requestStep σ s j = some t) : t.stage i = s.stage i := by
  obtain ⟨-, rfl⟩ | ⟨done, -, rfl⟩ | ⟨done, db, todo, -, rfl⟩ | ⟨done, kept, db, todo, -, rfl⟩ :=
    requestStep_cases hstep
  · exact Site.put_stage_of_ne _ hij _
  · exact Site.put_stage_of_ne _ hij _
  · exact Site.put_stage_of_ne _ hij _
  · exact Site.put_stage_of_ne _ hij _

/-- An undisturbed step keeps a request on course. -/
theorem OnCourse.step {σ : Setting ι} {s t : Site ι} {i : ι} (h : OnCourse σ i (s.stage i))
    (hfound : Undisturbed s i) (hstep : requestStep σ s i = some t) :
    OnCourse σ i (t.stage i) := by
  obtain ⟨-, rfl⟩ | ⟨done, hstage, rfl⟩ | ⟨done, db, todo, hstage, rfl⟩ |
    ⟨done, kept, db, todo, hstage, rfl⟩ := requestStep_cases hstep
  · -- `clear_all`
    rw [Site.put_stage_self]
    exact rfl
  · -- the last read
    rw [hstage, OnCourse, List.append_nil] at h
    obtain ⟨apps, happs, hisolated⟩ := isolated_addAll (σ.databaseConnections i) (σ.dirs i)
    rw [Site.put_stage_self, hfound done [] hstage, h, happs]
    exact ⟨_, rfl, hisolated⟩
  · -- the read of an `add`
    rw [hstage, OnCourse] at h
    rw [Site.put_stage_self, hfound done (db :: todo) hstage]
    exact ⟨h, rfl⟩
  · -- the write of an `add`
    rw [hstage, OnCourse] at h
    rw [Site.put_stage_self, OnCourse, List.append_assoc]
    exact h.1

/-- **A request whose reads all find the cache as it has left it ends with the
connections of its own user**, in every interleaving with any other requests. -/
theorem isolated_of_undisturbed (σ : Setting ι) {s t : Site ι} {steps : List ι} {i : ι}
    (hstart : s.stage i = .start)
    (hfound : Along (requestStep σ) (fun s j => j = i → Undisturbed s i) s steps)
    (hrun : exec (requestStep σ) s steps = some t) {applications : Option (List App)}
    (hend : t.stage i = .finished applications) :
    ∃ apps, applications = some apps ∧ Isolated (σ.databaseConnections i) apps := by
  have hcourse : OnCourse σ i (t.stage i) := by
    refine exec_inv_along (I := fun s => OnCourse σ i (s.stage i)) ?_ ?_ hfound hrun
    · intro s j t hs hj hstep
      by_cases hji : j = i
      · subst hji
        exact hs.step (hj rfl) hstep
      · -- the others may do what they like to the entry
        rw [stage_of_ne (Ne.symm hji) hstep]
        exact hs
    · rw [hstart]
      trivial
  rw [hend] at hcourse
  exact hcourse

/-! ### A request alone -/

/-- What a request has left in the cache, or has read of it. -/
def Tidy (s : Site ι) (i : ι) : Prop :=
  match s.stage i with
  | .adding done _ => s.cache = addAll done
  | .hasRead done kept db _ => kept = keep (active (addAll done)) db.session
  | _ => True

omit [DecidableEq ι] in
theorem Tidy.undisturbed {s : Site ι} {i : ι} (h : Tidy s i) : Undisturbed s i := by
  intro done todo hstage
  rw [Tidy, hstage] at h
  exact h

/-- The request's own steps keep what it has left. -/
theorem Tidy.step {σ : Setting ι} {s t : Site ι} {i : ι} (h : Tidy s i)
    (hstep : requestStep σ s i = some t) : Tidy t i := by
  obtain ⟨-, rfl⟩ | ⟨done, -, rfl⟩ | ⟨done, db, todo, hstage, rfl⟩ |
    ⟨done, kept, db, todo, hstage, rfl⟩ := requestStep_cases hstep
  · simp [Tidy, addAll]
  · simp [Tidy]
  · rw [Tidy, hstage] at h
    simp [Tidy, h]
  · rw [Tidy, hstage] at h
    simp [Tidy, h, addAll_snoc, add]

/-- **A request is undisturbed as long as no other one comes in between.** -/
theorem along_alone (σ : Setting ι) {s : Site ι} {i : ι} (h : Tidy s i) (n : ℕ) :
    Along (requestStep σ) (fun s j => j = i → Undisturbed s i) s (List.replicate n i) := by
  induction n generalizing s with
  | zero => exact trivial
  | succ n ih =>
    rw [List.replicate_succ, along_cons]
    exact ⟨fun _ => h.undisturbed, fun t ht => ih (h.step ht)⟩

/-! ### The condition is needed -/

/-- Two users with a database each. -/
def twoUsers : Setting Bool where
  table :=
    [⟨1, some 1, "mysql", "shop", "10.0.0.5", some "shop", some "an", some "an-secret", none⟩,
     ⟨2, some 2, "mysql", "blog", "10.0.0.5", some "blog", some "bui", some "bui-secret", none⟩]
  currentUser := fun second => if second then 2 else 1
  dirs := fun _ => []

/-- Before any request. -/
def noRequests : Site Bool := ⟨none, fun _ => .start⟩

/-- The second request adds its connection before the first one has read the entry for the
last time. -/
def secondInBetween : List Bool := [false, true, false, false, true, true, false]

/-- The first user ends with the second user's password. -/
theorem password_of_other_user :
    ∃ t apps, exec (requestStep twoUsers) noRequests secondInBetween = some t ∧
      t.stage false = .finished (some apps) ∧
      apps.map (fun app => app.session.bind Session.password) =
        [some "an-secret", some "bui-secret"] ∧
      ¬ Isolated (twoUsers.databaseConnections false) apps := by
  refine ⟨_, _, rfl, rfl, by decide, fun h => ?_⟩
  let other : DatabaseConnection :=
    ⟨2, some 2, "mysql", "blog", "10.0.0.5", some "blog", some "bui", some "bui-secret", none⟩
  obtain ⟨db, hdb, hs⟩ := h.belongs
    { name := "blog", path := "blog", session := some other.session,
      adapters := [⟨some other.session.toHash, "blog"⟩] } (by decide) other.session rfl
  obtain rfl : db = ⟨1, some 1, "mysql", "shop", "10.0.0.5", some "shop", some "an",
      some "an-secret", none⟩ := by simpa [twoUsers, Setting.databaseConnections] using hdb
  exact absurd hs (by decide)

/-- A request of the first user alone, over whatever was left in the cache. -/
theorem isolated_alone :
    ∃ apps, Isolated (twoUsers.databaseConnections false) apps ∧ apps.map App.name = ["shop"] := by
  have hrun : ∃ t applications,
      exec (requestStep twoUsers) noRequests (List.replicate 4 false) = some t ∧
        t.stage false = .finished applications ∧
        (applications.getD []).map App.name = ["shop"] := ⟨_, _, rfl, rfl, by decide⟩
  obtain ⟨t, applications, hexec, hend, hnames⟩ := hrun
  have htidy : Tidy noRequests false := True.intro
  obtain ⟨apps, rfl, hisolated⟩ :=
    isolated_of_undisturbed twoUsers rfl (along_alone twoUsers htidy 4) hexec hend
  exact ⟨apps, hisolated, hnames⟩

end BkPlatform.Labrador
