import BkPlatform.Labrador.Isolation
import Mathlib.Data.List.Nodup

/-!
# Reaching every connection

`find_applications` makes an application of each connection of the user, and the URL chooses one
by its name.  On the way the connections pass through a store in which a name has one entry; and
of the applications with a name, those on disk before those of connections, the first one is
chosen.  Names are those of databases, which different servers may have in common.

## Main definitions

* `Disk`, `appsPath`, `foundOnDisk` — the applications a URL finds on disk.
* `findApplications` — the list of an undisturbed request.
* `EachReachable` — every connection has its application, and a URL for it.

## Main results

* `finished_of_undisturbed` — an undisturbed request ends with that list.
* `active_addAll_of_nodup` — what the store holds if no name is used twice.
* `eachReachable_iff` — **exactly when every connection is reachable.**
* `eachReachable_iff_nodup` — with subdomains, it is the names that matter.
-/

namespace BkPlatform.Labrador

open Run

/-! ### The list of a request -/

/-- What there is on disk. -/
structure Disk where
  /-- `App.supports_pow?`. -/
  supportsPow : Bool
  /-- The supported applications in a directory, if it can be read. -/
  apps : String → Option (List AppDir)

/-- `apps_path`. -/
def appsPath (disk : Disk) (p : AppParams) : Option String :=
  match p.pathParam with
  | some path => some (path ++ "/../")
  | none => if disk.supportsPow then some "~/.pow" else none

/-- The applications `App.find_all_from_path` finds; without a path there are none. -/
def foundOnDisk (disk : Disk) (p : AppParams) : Option (List AppDir) :=
  match appsPath disk p with
  | some path => disk.apps path
  | none => some []

/-- `@applications`, for the applications on disk and the connections of the user. -/
def applicationsOf (dirs : List AppDir) (rows : List DatabaseConnection) : Option (List App) :=
  (findAllFromSessions (active (addAll rows))).map fun apps => findAllFromPath dirs ++ apps

/-- `@applications` after `find_applications`, if it is set. -/
def findApplications (disk : Disk) (rows : List DatabaseConnection) (p : AppParams) :
    Option (List App) :=
  (foundOnDisk disk p).bind fun dirs => applicationsOf dirs rows

/-- **Every connection is reachable**: whenever the list is set, its applications are those on
disk and one for each connection, and for each of the connections there is a URL that chooses its
application. -/
def EachReachable (disk : Disk) (rows : List DatabaseConnection) : Prop :=
  (∀ p apps, findApplications disk rows p = some apps →
    (apps.filterMap App.session).Perm (rows.map DatabaseConnection.session)) ∧
  ∀ db ∈ rows, ∃ p apps app, findApplications disk rows p = some apps ∧
    currentApp apps p = some app ∧ app.session = some db.session

/-! ### An undisturbed request -/

section Requests

variable {ι : Type*} [DecidableEq ι]

/-- **An undisturbed request ends with that list**, in every interleaving with any other
requests. -/
theorem finished_of_undisturbed (σ : Setting ι) {s t : Site ι} {steps : List ι} {i : ι}
    (hstart : s.stage i = .start)
    (hfound : Along (requestStep σ) (fun s j => j = i → Undisturbed s i) s steps)
    (hrun : exec (requestStep σ) s steps = some t) {applications : Option (List App)}
    (hend : t.stage i = .finished applications) :
    applications = applicationsOf (σ.dirs i) (σ.databaseConnections i) := by
  have hinv : OnCourse σ i (t.stage i) ∧ ∀ applications, t.stage i = .finished applications →
      applications = applicationsOf (σ.dirs i) (σ.databaseConnections i) := by
    refine exec_inv_along (I := fun s => OnCourse σ i (s.stage i) ∧
      ∀ applications, s.stage i = .finished applications →
        applications = applicationsOf (σ.dirs i) (σ.databaseConnections i)) ?_ ?_ hfound hrun
    · intro s j t hs hj hstep
      by_cases hji : j = i
      · subst hji
        refine ⟨hs.1.step (hj rfl) hstep, fun applications hfinished => ?_⟩
        have hcourse := hs.1
        obtain ⟨-, rfl⟩ | ⟨done, hstage, rfl⟩ | ⟨done, db, todo, -, rfl⟩ |
          ⟨done, kept, db, todo, -, rfl⟩ := requestStep_cases hstep
        · rw [Site.put_stage_self] at hfinished
          cases hfinished
        · -- the last read finds all connections
          rw [hstage, OnCourse, List.append_nil] at hcourse
          rw [Site.put_stage_self, hj rfl done [] hstage, hcourse,
            Stage.finished.injEq] at hfinished
          exact hfinished.symm
        · rw [Site.put_stage_self] at hfinished
          cases hfinished
        · rw [Site.put_stage_self] at hfinished
          cases hfinished
      · rw [stage_of_ne (Ne.symm hji) hstep]
        exact hs
    · rw [hstart]
      refine ⟨trivial, fun applications h => ?_⟩
      cases h
  exact hinv.2 applications hend

end Requests

/-! ### The store -/

/-- No name has two entries. -/
theorem nodup_active (rows : List DatabaseConnection) :
    ((active (addAll rows)).map Session.name).Nodup := by
  induction rows using List.reverseRecOn with
  | nil => exact List.nodup_nil
  | append_singleton rows db ih =>
    rw [active_addAll_snoc, List.map_append, List.nodup_append]
    refine ⟨ih.sublist (List.filter_sublist.map _), List.nodup_singleton _, ?_⟩
    intro a ha b hb
    obtain ⟨s, hs, rfl⟩ := List.mem_map.mp ha
    obtain rfl := List.mem_singleton.mp hb
    simpa using (List.mem_filter.mp hs).2

/-- If no name is used twice, the store holds the sessions of all connections. -/
theorem active_addAll_of_nodup {rows : List DatabaseConnection}
    (hnodup : (rows.map DatabaseConnection.name).Nodup) :
    active (addAll rows) = rows.map DatabaseConnection.session := by
  induction rows using List.reverseRecOn with
  | nil => rfl
  | append_singleton rows db ih =>
    rw [List.map_append, List.nodup_append] at hnodup
    obtain ⟨hrows, -, hdisjoint⟩ := hnodup
    have hkept : keep (rows.map DatabaseConnection.session) db.session =
        rows.map DatabaseConnection.session := by
      rw [keep, List.filter_eq_self]
      intro s hs
      obtain ⟨db', hdb', rfl⟩ := List.mem_map.mp hs
      have hne := hdisjoint db'.name (List.mem_map_of_mem hdb') db.name (by simp)
      simpa [session_name] using hne
    rw [active_addAll_snoc, ih hrows, hkept, List.map_append, List.map_singleton]

/-- The application of a connection. -/
def DatabaseConnection.app (db : DatabaseConnection) : App where
  name := db.name
  path := db.name
  session := some db.session
  adapters := [⟨some db.session.toHash, db.name⟩]

theorem findAllFromSessions_map (rows : List DatabaseConnection) :
    findAllFromSessions (rows.map DatabaseConnection.session) =
      some (rows.map DatabaseConnection.app) := by
  induction rows with
  | nil => rfl
  | cons db rows ih =>
    have happ : App.ofSession db.session = some db.app := by
      rw [App.ofSession, session_name]
      rfl
    rw [findAllFromSessions] at ih ⊢
    simp [happ, ih]

theorem applicationsOf_of_nodup {rows : List DatabaseConnection}
    (hnodup : (rows.map DatabaseConnection.name).Nodup) (dirs : List AppDir) :
    applicationsOf dirs rows =
      some (findAllFromPath dirs ++ rows.map DatabaseConnection.app) := by
  rw [applicationsOf, active_addAll_of_nodup hnodup, findAllFromSessions_map, Option.map_some]

/-- Applications on disk have no session. -/
theorem filterMap_findAllFromPath (dirs : List AppDir) :
    (findAllFromPath dirs).filterMap App.session = [] := by
  rw [findAllFromPath, List.filterMap_map, List.filterMap_eq_nil_iff]
  exact fun _ _ => rfl

/-- The sessions of the list are those in the store. -/
theorem sessions_applicationsOf {dirs : List AppDir} {rows : List DatabaseConnection}
    {apps : List App} (h : applicationsOf dirs rows = some apps) :
    apps.filterMap App.session = active (addAll rows) := by
  have hnamed : ∀ s ∈ active (addAll rows), s.name.isSome = true := fun s => isSome_name_of_mem
  obtain ⟨made, hmade, hsessions⟩ := findAllFromSessions_eq_some hnamed
  rw [applicationsOf, hmade, Option.map_some] at h
  have hfilter : made.filterMap App.session = active (addAll rows) := by
    have hid := congrArg (List.filterMap id) hsessions
    simpa [List.filterMap_map, Function.comp_def] using hid
  rw [← Option.some.inj h, List.filterMap_append, filterMap_findAllFromPath, hfilter,
    List.nil_append]

/-- If the list has an application for each connection, no name is used twice. -/
theorem nodup_of_sessions {dirs : List AppDir} {rows : List DatabaseConnection} {apps : List App}
    (h : applicationsOf dirs rows = some apps)
    (hperm : (apps.filterMap App.session).Perm (rows.map DatabaseConnection.session)) :
    (rows.map DatabaseConnection.name).Nodup := by
  rw [sessions_applicationsOf h] at hperm
  have hnames := (hperm.map Session.name).nodup_iff.mp (nodup_active rows)
  rw [List.map_map] at hnames
  refine List.Nodup.of_map some ?_
  rw [List.map_map]
  have hsame : Session.name ∘ DatabaseConnection.session = some ∘ DatabaseConnection.name :=
    funext session_name
  rwa [← hsame]

/-! ### Choosing by the name -/

/-- An application on disk is chosen before all others with its name. -/
theorem currentApp_append {dirs : List AppDir} {apps : List App} {p : AppParams} :
    currentApp (findAllFromPath dirs ++ apps) p =
      (currentApp (findAllFromPath dirs) p).or (currentApp apps p) := List.find?_append

/-- No application on disk is chosen if none has the name. -/
theorem currentApp_disk_eq_none {dirs : List AppDir} {p : AppParams} {name : String}
    (hname : appNameFromUrl p = some name) :
    currentApp (findAllFromPath dirs) p = none ↔ ∀ d ∈ dirs, d.name ≠ name := by
  rw [currentApp, List.find?_eq_none, findAllFromPath, List.forall_mem_map, hname]
  simp

/-- The application of a connection is chosen by its name. -/
theorem currentApp_rows {rows : List DatabaseConnection} {db : DatabaseConnection} {p : AppParams}
    (hnodup : (rows.map DatabaseConnection.name).Nodup) (hdb : db ∈ rows)
    (hname : appNameFromUrl p = some db.name) :
    currentApp (rows.map DatabaseConnection.app) p = some db.app := by
  cases hfind : currentApp (rows.map DatabaseConnection.app) p with
  | none =>
    have hnone := List.find?_eq_none.mp hfind db.app (List.mem_map_of_mem hdb)
    rw [hname] at hnone
    simp [DatabaseConnection.app] at hnone
  | some app =>
    obtain ⟨db', hdb', rfl⟩ := List.mem_map.mp (List.mem_of_find?_eq_some hfind)
    have hsame := List.find?_some hfind
    rw [hname] at hsame
    have hnames : db'.name = db.name := by simpa [DatabaseConnection.app] using hsame
    rw [List.inj_on_of_nodup_map hnodup hdb' hdb hnames]

/-! ### Every connection -/

variable {disk : Disk} {rows : List DatabaseConnection}

/-- If every connection is reachable, no name is used twice. -/
theorem EachReachable.nodup (h : EachReachable disk rows) :
    (rows.map DatabaseConnection.name).Nodup := by
  obtain ⟨hlist, hchosen⟩ := h
  rcases rows.eq_nil_or_concat with rfl | ⟨init, db, rfl⟩
  · exact List.nodup_nil
  · obtain ⟨p, apps, -, happs, -⟩ := hchosen db (by simp)
    obtain ⟨dirs, -, hset⟩ := Option.bind_eq_some_iff.mp happs
    exact nodup_of_sessions hset (hlist p apps happs)

/-- If no name is used twice, a connection is reachable under a URL with its name, unless an
application on disk has the same one. -/
theorem eachReachable_of_nodup (hnodup : (rows.map DatabaseConnection.name).Nodup)
    (hurl : ∀ db ∈ rows, ∃ p dirs, appNameFromUrl p = some db.name ∧
      foundOnDisk disk p = some dirs ∧ ∀ d ∈ dirs, d.name ≠ db.name) :
    EachReachable disk rows := by
  constructor
  · intro p apps happs
    obtain ⟨dirs, -, hset⟩ := Option.bind_eq_some_iff.mp happs
    rw [sessions_applicationsOf hset, active_addAll_of_nodup hnodup]
  · intro db hdb
    obtain ⟨p, dirs, hname, hdirs, hother⟩ := hurl db hdb
    refine ⟨p, findAllFromPath dirs ++ rows.map DatabaseConnection.app, db.app, ?_, ?_, rfl⟩
    · exact Option.bind_eq_some_iff.mpr ⟨dirs, hdirs, applicationsOf_of_nodup hnodup dirs⟩
    · rw [currentApp_append, (currentApp_disk_eq_none hname).mpr hother, Option.none_or,
        currentApp_rows hnodup hdb hname]

/-- **Exactly when every connection is reachable**: when no name is used twice, and each has a
URL under which nothing on disk has the same name. -/
theorem eachReachable_iff (disk : Disk) (rows : List DatabaseConnection) :
    EachReachable disk rows ↔
      (rows.map DatabaseConnection.name).Nodup ∧
      ∀ db ∈ rows, ∃ p dirs, appNameFromUrl p = some db.name ∧
        foundOnDisk disk p = some dirs ∧ ∀ d ∈ dirs, d.name ≠ db.name := by
  refine ⟨fun h => ⟨h.nodup, fun db hdb => ?_⟩, fun h => eachReachable_of_nodup h.1 h.2⟩
  obtain ⟨p, apps, app, happs, happ, hsession⟩ := h.2 db hdb
  obtain ⟨dirs, hdirs, hset⟩ := Option.bind_eq_some_iff.mp happs
  rw [applicationsOf_of_nodup h.nodup] at hset
  rw [← Option.some.inj hset, currentApp_append, Option.or_eq_some_iff] at happ
  rcases happ with hdisk | ⟨hnone, hrow⟩
  · -- an application on disk has no session
    obtain ⟨d, -, rfl⟩ := List.mem_map.mp (List.mem_of_find?_eq_some hdisk)
    cases hsession
  · obtain ⟨db', -, rfl⟩ := List.mem_map.mp (List.mem_of_find?_eq_some hrow)
    have hnames : db'.name = db.name := by
      have hsame := congrArg Session.name (Option.some.inj hsession)
      rw [session_name, session_name] at hsame
      exact Option.some.inj hsame
    have hname : appNameFromUrl p = some db.name := by
      have hsame := List.find?_some hrow
      rw [← hnames]
      exact (beq_iff_eq.mp hsame).symm
    exact ⟨p, dirs, hname, hdirs, (currentApp_disk_eq_none hname).mp hnone⟩

/-- Under a subdomain nothing is found on disk, unless there is a directory of Pow: then every
connection with a name is reachable exactly if no name is used twice. -/
theorem eachReachable_iff_nodup (hpow : disk.supportsPow = false)
    (hnames : ∀ db ∈ rows, RubyString.isBlank db.name = false) :
    EachReachable disk rows ↔ (rows.map DatabaseConnection.name).Nodup := by
  refine ⟨EachReachable.nodup, fun hnodup => eachReachable_of_nodup hnodup fun db hdb => ?_⟩
  have hpath : appsPath disk { subdomain := db.name } = none := by
    rw [appsPath, hpow]
    rfl
  refine ⟨{ subdomain := db.name }, [], ?_, ?_, fun d hd => absurd hd List.not_mem_nil⟩
  · rw [appNameFromUrl, hnames db hdb]
    rfl
  · rw [foundOnDisk, hpath]

/-- Two databases of one user and one name, of MySQL and of Cassandra. -/
def shopTwice : List DatabaseConnection :=
  [⟨1, some 1, "mysql", "shop", "10.0.0.5", some "shop", some "an", some "an-secret", none⟩,
   ⟨2, some 1, "mongodb", "shop", "10.0.0.6", some "shop", some "bm", some "bm-secret", none⟩]

/-- Only the second one is in the list. -/
theorem not_eachReachable_shopTwice : ¬ EachReachable ⟨false, fun _ => none⟩ shopTwice := by
  rw [eachReachable_iff]
  exact fun h => absurd h.1 (by decide)

end BkPlatform.Labrador
