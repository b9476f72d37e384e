import BkPlatform.Labrador.Adapter
import BkPlatform.Lib.RubyString

/-!
# Applications

An application is found on disk or made from a session.  The one a request works
on is chosen among the request's applications by the name in the URL.

## Main definitions

* `App`, `findAllFromPath`, `findAllFromSessions` — applications.
* `appNameFromUrl`, `currentApp`, `App.findAdapterByName` — the choice.

## Main results

* `findAllFromSessions_eq_some` — the applications made from named sessions.
-/

namespace BkPlatform.Labrador

open RubyString

/-- An application; one found on disk has no session. -/
structure App where
  name : String
  path : String
  session : Option Session
  adapters : List Adapter
  deriving DecidableEq, Repr

/-- A directory with a supported application, and the adapters of its files. -/
structure AppDir where
  name : String
  path : String
  adapters : List Adapter
  deriving DecidableEq, Repr

/-- `App.find_all_from_path`. -/
def findAllFromPath (dirs : List AppDir) : List App :=
  dirs.map fun d => { name := d.name, path := d.path, session := none, adapters := d.adapters }

/-- `App.new` of a session; a missing name is an `ArgumentError`. -/
def App.ofSession (session : Session) : Option App :=
  session.name.map fun name =>
    { name := name, path := name, session := some session,
      adapters := [⟨some session.toHash, name⟩] }

/-- `App.find_all_from_sessions`. -/
def findAllFromSessions (sessions : List Session) : Option (List App) :=
  sessions.mapM App.ofSession

/-- `App#find_adapter_by_name`. -/
def App.findAdapterByName (app : App) (name : String) : Option Adapter :=
  app.adapters.find? fun a => a.name == some name

/-- The parts of a string between slashes, without the empty ones at the end. -/
def splitSlash (s : String) : List String :=
  (((s.toList.splitOn '/').reverse.dropWhile List.isEmpty).reverse).map String.ofList

/-- The URL parameters that choose an application. -/
structure AppParams where
  subdomain : String := ""
  path : Option String := none
  format : Option String := none
  deriving DecidableEq, Repr

/-- `path_param`. -/
def AppParams.pathParam (p : AppParams) : Option String :=
  match p.path with
  | none => none
  | some path =>
    if isBlank path then none
    else
      let path := match p.format with
        | some format => path ++ "." ++ format
        | none => path
      some (if path.toList.head? = some '~' then path else "/" ++ path)

/-- `app_name_from_url`. -/
def appNameFromUrl (p : AppParams) : Option String :=
  if isBlank p.subdomain then (splitSlash (p.pathParam.getD "")).getLast? else some p.subdomain

/-- `current_app`; `none` is the `NullApp`. -/
def currentApp (applications : List App) (p : AppParams) : Option App :=
  applications.find? fun app => some app.name == appNameFromUrl p

/-- Sessions that all have a name become applications in their order. -/
theorem findAllFromSessions_eq_some {sessions : List Session}
    (hnamed : ∀ s ∈ sessions, s.name.isSome = true) :
    ∃ apps, findAllFromSessions sessions = some apps ∧
      apps.map App.session = sessions.map some := by
  induction sessions with
  | nil => exact ⟨[], rfl, rfl⟩
  | cons s sessions ih =>
    obtain ⟨name, hname⟩ := Option.isSome_iff_exists.mp (hnamed s List.mem_cons_self)
    obtain ⟨apps, happs, hsessions⟩ := ih fun t ht => hnamed t (List.mem_cons_of_mem s ht)
    let app : App := { name := name, path := name, session := some s,
                       adapters := [⟨some s.toHash, name⟩] }
    have happ : App.ofSession s = some app := by rw [App.ofSession, hname, Option.map_some]
    refine ⟨app :: apps, ?_, ?_⟩
    · rw [findAllFromSessions] at happs ⊢
      simp [happ, happs]
    · rw [List.map_cons, List.map_cons, hsessions]

end BkPlatform.Labrador
