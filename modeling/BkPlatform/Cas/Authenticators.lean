import BkPlatform.Cas.Model

/-!
# The start of the authenticators

`init_authenticators!` looks the classes of the configured authenticators up, and
where one is not known it loads them all and looks them up again.  The list of the
classes is not emptied in between: the classes looked up before the first unknown
one are in it twice.  What comes after pairs the list with the configuration by
position.

What Ruby makes of the names and the files is a parameter: which classes a file
defines, and what the classes do when they are set up.

## Main definitions

* `AuthConf`, `Classes` — an entry of the configuration, and the classes there are.
* `initAuthenticators` — the start, and `Startup` its state.
* `loginAuthenticators` — the pairs `POST /login` works through.
* `Aligned` — what the start is there for.
* `CanLoad`, `Loads` — all classes can be had, and the second pass goes through.

## Main results

* `run_initAuthenticators` — one pass that makes the list, and the setup after it.
* `aligned_iff` — **the start does what it is there for iff either pass does it alone.**
-/

namespace BkPlatform.Cas

open Eff RubyString

/-! ### The start -/

/-- An entry of `config[:authenticator]`. -/
structure AuthConf where
  className : String
  source : Option String
  options : List (String × String)
  deriving DecidableEq, Repr

/-- `config[:authenticator]`. -/
inductive AuthSetting
  | nil
  | hash (conf : AuthConf)
  | array (confs : List AuthConf)

/-- A class, with `conf.merge('auth_index' => index)`. -/
structure Setup where
  className : String
  conf : AuthConf
  index : ℕ
  deriving DecidableEq, Repr

/-- What Ruby knows of the classes, under their names. -/
structure Classes where
  /-- `underscore`. -/
  underscore : String → String
  /-- The classes a file defines, if there is such a file. -/
  require : String → Option (List String)
  /-- `respond_to?(:setup)`. -/
  respondsToSetup : String → Bool
  /-- What `setup` raises. -/
  setup : Setup → Option Raised

/-- The exceptions of the start. -/
inductive StartError
  | systemExit
  | nameError (name : String)
  | loadError (path : String)
  | noMethodError
  | setup (e : Raised)
  deriving DecidableEq, Repr

/-- The state of the start: the classes that are loaded, the list `auth`, and which classes
have been set up with what. -/
structure Startup where
  loaded : List String
  auth : List String
  setups : List Setup
  deriving DecidableEq, Repr

/-- A part of the start. -/
abbrev Init (α : Type) := Eff StartError Startup α

/-- The configuration as an array. -/
def AuthSetting.confs : AuthSetting → Option (List AuthConf)
  | .nil => none
  | .hash conf => some [conf]
  | .array confs => some confs

/-- `constantize`. -/
def constantize (name : String) : Init String := do
  let s ← Eff.get
  if name ∈ s.loaded then pure name else Eff.raise (.nameError name)

/-- `auth << class`. -/
def pushAuth (name : String) : Init Unit :=
  Eff.modify fun s => { s with auth := s.auth ++ [name] }

/-- The first pass. -/
def constantizeEach : List AuthConf → Init Unit
  | [] => pure ()
  | conf :: rest => do
    let name ← constantize conf.className
    pushAuth name
    constantizeEach rest

/-- The file of an entry: the one it names, or one found by the name of the class. -/
def Classes.path (env : Classes) (conf : AuthConf) : String :=
  match conf.source with
  | some source => source
  | none => "casserver/" ++ delete "cas_server/" (env.underscore conf.className)

/-- `require`. -/
def requireConf (env : Classes) (conf : AuthConf) : Init Unit :=
  match env.require (env.path conf) with
  | none => Eff.raise (.loadError (env.path conf))
  | some names => Eff.modify fun s => { s with loaded := s.loaded ++ names }

/-- The second pass. -/
def loadEach (env : Classes) : List AuthConf → Init Unit
  | [] => pure ()
  | conf :: rest => do
    requireConf env conf
    let name ← constantize conf.className
    pushAuth name
    loadEach env rest

/-- `rescue NameError`; a `NoMethodError` is one. -/
def loadAfter (env : Classes) (confs : List AuthConf) : StartError → Init Unit
  | .nameError _ | .noMethodError => loadEach env confs
  | e => Eff.raise e

/-- `Array#zip`: the second list may be too short. -/
def zipNil {α β : Type} : List α → List β → List (α × Option β)
  | [], _ => []
  | a :: as, [] => (a, none) :: zipNil as []
  | a :: as, b :: bs => (a, some b) :: zipNil as bs

/-- `setup`, of the classes that have it. -/
def setupEach (env : Classes) : List ((String × Option AuthConf) × ℕ) → Init Unit
  | [] => pure ()
  | ((name, conf), index) :: rest => do
    if env.respondsToSetup name then
      match conf with
      | none => Eff.raise .noMethodError
      | some conf =>
        match env.setup ⟨name, conf, index⟩ with
        | some e => Eff.raise (.setup e)
        | none => Eff.modify fun s => { s with setups := s.setups ++ [⟨name, conf, index⟩] }
    setupEach env rest

/-- `init_authenticators!`: what it sets `auth` to. -/
def initAuthenticators (env : Classes) (setting : AuthSetting) : Init (List String) :=
  match setting.confs with
  | none => Eff.raise .systemExit
  | some confs => do
    Eff.rescue (constantizeEach confs) (loadAfter env confs)
    let s ← Eff.get
    setupEach env (zipNil s.auth confs).zipIdx
    pure s.auth

/-- The state before it. -/
def Startup.begin (loaded : List String) : Startup := ⟨loaded, [], []⟩

/-- The authenticators `POST /login` works through: `validate` is what an instance of the
class makes of the credentials, after it has been configured. -/
def loginAuthenticators (validate : Setup → Authenticator) (auth : List String)
    (confs : List AuthConf) : List Authenticator :=
  (zipNil auth confs).zipIdx.map fun ((name, conf), index) =>
    match conf with
    | some conf => validate ⟨name, conf, index⟩
    | none => fun _ _ _ => .raised .noMethodError

/-! ### What it is there for -/

/-- The entries, each with its own class and its own index. -/
def ownSetups (confs : List AuthConf) : List Setup :=
  confs.zipIdx.map fun (conf, index) => ⟨conf.className, conf, index⟩

/-- The file of this entry defines the class. -/
def Classes.Defines (env : Classes) (conf : AuthConf) (name : String) : Prop :=
  ∃ names, env.require (env.path conf) = some names ∧ name ∈ names

/-- Every class is loaded, or one of the files defines it. -/
def CanLoad (env : Classes) (loaded : List String) (confs : List AuthConf) : Prop :=
  ∀ conf ∈ confs, conf.className ∈ loaded ∨ ∃ e ∈ confs, env.Defines e conf.className

/-- There is a file for every entry, and its class is known after the files up to it. -/
def Loads (env : Classes) : List String → List AuthConf → Prop
  | _, [] => True
  | loaded, conf :: rest => ∃ names, env.require (env.path conf) = some names ∧
      conf.className ∈ loaded ++ names ∧ Loads env (loaded ++ names) rest

/-- No class objects to its own entry. -/
def SetupsPass (env : Classes) (confs : List AuthConf) : Prop :=
  ∀ x ∈ ownSetups confs, env.respondsToSetup x.className = true → env.setup x = none

/-- If the start finishes, there is one class for each entry, in the same order, and it has
been set up with that entry; and it does finish if all classes can be loaded. -/
structure Aligned (env : Classes) (loaded : List String) (confs : List AuthConf) : Prop where
  auth : ∀ auth s, Eff.run (initAuthenticators env (.array confs)) (.begin loaded) =
    (.ok auth, s) → auth = confs.map AuthConf.className ∧
      s.setups = (ownSetups confs).filter fun x => env.respondsToSetup x.className
  finishes : CanLoad env loaded confs →
    Returns (initAuthenticators env (.array confs)) (.begin loaded)

section Passes

variable {env : Classes} {s : Startup} {confs : List AuthConf}

theorem run_constantize {name : String} (h : name ∈ s.loaded) :
    Eff.run (constantize name) s = (.ok name, s) := by
  rw [constantize, run_bind_ok (run_get s), if_pos h]
  rfl

theorem run_constantize_error {name : String} (h : name ∉ s.loaded) :
    Eff.run (constantize name) s = (.error (.nameError name), s) := by
  rw [constantize, run_bind_ok (run_get s), if_neg h]
  rfl

theorem run_pushAuth (name : String) (s : Startup) :
    Eff.run (pushAuth name) s = (.ok (), { s with auth := s.auth ++ [name] }) := rfl

/-- The first pass, as far as the classes are known. -/
theorem run_constantizeEach_append (before rest : List AuthConf)
    (h : ∀ conf ∈ before, conf.className ∈ s.loaded) :
    Eff.run (constantizeEach (before ++ rest)) s = Eff.run (constantizeEach rest)
      { s with auth := s.auth ++ before.map AuthConf.className } := by
  induction before generalizing s with
  | nil => simp
  | cons conf before ih =>
    obtain ⟨hconf, hbefore⟩ := List.forall_mem_cons.mp h
    have hrest := @ih { s with auth := s.auth ++ [conf.className] } hbefore
    rw [List.cons_append, constantizeEach, run_bind_ok (run_constantize hconf),
      run_bind_ok (run_pushAuth _ s), hrest]
    simp

/-- The first pass where all classes are known. -/
theorem run_constantizeEach (h : ∀ conf ∈ confs, conf.className ∈ s.loaded) :
    Eff.run (constantizeEach confs) s =
      (.ok (), { s with auth := s.auth ++ confs.map AuthConf.className }) := by
  have hrun := run_constantizeEach_append confs [] h
  rwa [List.append_nil] at hrun

/-- The first pass up to a class that is not known. -/
theorem run_constantizeEach_missing {before rest : List AuthConf} {conf : AuthConf}
    (h : ∀ e ∈ before, e.className ∈ s.loaded) (hmissing : conf.className ∉ s.loaded) :
    Eff.run (constantizeEach (before ++ conf :: rest)) s =
      (.error (.nameError conf.className),
        { s with auth := s.auth ++ before.map AuthConf.className }) := by
  rw [run_constantizeEach_append before _ h, constantizeEach]
  exact run_bind_error (run_constantize_error hmissing)

/-- Either all classes are known, or there is a first one that is not. -/
theorem exists_missing (loaded : List String) (confs : List AuthConf) :
    (∀ conf ∈ confs, conf.className ∈ loaded) ∨ ∃ before conf rest,
      confs = before ++ conf :: rest ∧ (∀ e ∈ before, e.className ∈ loaded) ∧
        conf.className ∉ loaded := by
  cases hfind : confs.find? fun conf => conf.className ∉ loaded with
  | none =>
    rw [List.find?_eq_none] at hfind
    exact Or.inl fun conf hconf => by simpa using hfind conf hconf
  | some conf =>
    obtain ⟨hmissing, before, rest, hsplit, hbefore⟩ := List.find?_eq_some_iff_append.mp hfind
    refine Or.inr ⟨before, conf, rest, hsplit, fun e he => ?_, by simpa using hmissing⟩
    simpa using hbefore e he

/-- The second pass, where it goes through. -/
theorem run_loadEach (h : Loads env s.loaded confs) : ∃ loaded,
    Eff.run (loadEach env confs) s =
      (.ok (), { s with loaded := loaded, auth := s.auth ++ confs.map AuthConf.className }) := by
  induction confs generalizing s with
  | nil => exact ⟨s.loaded, by simp [loadEach]⟩
  | cons conf rest ih =>
    obtain ⟨names, hfile, hname, hrest⟩ := h
    have hrequire : Eff.run (requireConf env conf) s =
        (.ok (), { s with loaded := s.loaded ++ names }) := by
      rw [requireConf, hfile]
      rfl
    obtain ⟨loaded, hrun⟩ := @ih { s with
      loaded := s.loaded ++ names, auth := s.auth ++ [conf.className] } hrest
    refine ⟨loaded, ?_⟩
    rw [loadEach, run_bind_ok hrequire, run_bind_ok (run_constantize hname),
      run_bind_ok (run_pushAuth _ _), hrun]
    simp

/-- It does so only there. -/
theorem loads_of_returns (h : Returns (loadEach env confs) s) : Loads env s.loaded confs := by
  induction confs generalizing s with
  | nil => trivial
  | cons conf rest ih =>
    rw [loadEach] at h
    obtain ⟨_, s₁, hrequire, hnext⟩ := returns_bind_iff.mp h
    obtain ⟨name, s₂, hconstantize, hnext⟩ := returns_bind_iff.mp hnext
    obtain ⟨_, s₃, hpush, hrest⟩ := returns_bind_iff.mp hnext
    cases hfile : env.require (env.path conf) with
    | none =>
      rw [requireConf, hfile] at hrequire
      cases hrequire
    | some names =>
      rw [requireConf, hfile] at hrequire
      cases hrequire
      by_cases hname : conf.className ∈ s.loaded ++ names
      · rw [run_constantize hname] at hconstantize
        cases hconstantize
        cases hpush
        exact ⟨names, hfile, hname, ih hrest⟩
      · rw [run_constantize_error hname] at hconstantize
        cases hconstantize

/-- What the second pass loads can be loaded. -/
theorem Loads.canLoad {loaded : List String} (h : Loads env loaded confs) :
    CanLoad env loaded confs := by
  induction confs generalizing loaded with
  | nil => exact fun _ hconf => absurd hconf List.not_mem_nil
  | cons conf rest ih =>
    obtain ⟨names, hfile, hname, hrest⟩ := h
    intro e he
    have hhead : ∀ name ∈ names, env.Defines conf name := fun name hmem => ⟨names, hfile, hmem⟩
    have hsome : e.className ∈ loaded ++ names ∨ ∃ d ∈ rest, env.Defines d e.className := by
      rcases List.mem_cons.mp he with rfl | htail
      · exact Or.inl hname
      · exact ih hrest e htail
    rcases hsome with hmem | ⟨d, hd, hdefines⟩
    · rcases List.mem_append.mp hmem with hold | hnew
      · exact Or.inl hold
      · exact Or.inr ⟨conf, List.mem_cons_self, hhead _ hnew⟩
    · exact Or.inr ⟨d, List.mem_cons_of_mem _ hd, hdefines⟩

/-- The list paired with the configuration it was made from. -/
theorem zipIdx_zipNil (confs : List AuthConf) :
    (zipNil (confs.map AuthConf.className) confs).zipIdx =
      (ownSetups confs).map fun x => ((x.className, some x.conf), x.index) := by
  have hzip : zipNil (confs.map AuthConf.className) confs =
      confs.map fun conf => (conf.className, some conf) := by
    induction confs with
    | nil => rfl
    | cons conf rest ih => rw [List.map_cons, zipNil, ih, List.map_cons]
  rw [hzip, List.zipIdx_map, ownSetups, List.map_map]
  rfl

/-- One class that does not raise. -/
def setupOne (env : Classes) (x : Setup) (s : Startup) : Startup :=
  if env.respondsToSetup x.className then { s with setups := s.setups ++ [x] } else s

theorem run_setupEach_cons (x : Setup) (rest : List ((String × Option AuthConf) × ℕ))
    (h : env.respondsToSetup x.className = true → env.setup x = none) :
    Eff.run (setupEach env (((x.className, some x.conf), x.index) :: rest)) s =
      Eff.run (setupEach env rest) (setupOne env x s) := by
  rw [setupEach, setupOne]
  by_cases hresponds : env.respondsToSetup x.className = true
  · rw [if_pos hresponds, if_pos hresponds]
    dsimp only
    rw [h hresponds]
    rfl
  · rw [if_neg hresponds, if_neg hresponds]

/-- Every class is set up with its own entry, if none of them raises. -/
theorem run_setupEach {xs : List Setup}
    (h : ∀ x ∈ xs, env.respondsToSetup x.className = true → env.setup x = none) :
    Eff.run (setupEach env (xs.map fun x => ((x.className, some x.conf), x.index))) s =
      (.ok (), { s with
        setups := s.setups ++ xs.filter fun x => env.respondsToSetup x.className }) := by
  induction xs generalizing s with
  | nil => simp [setupEach]
  | cons x rest ih =>
    obtain ⟨hx, hrest⟩ := List.forall_mem_cons.mp h
    rw [List.map_cons, run_setupEach_cons x _ hx, ih hrest, setupOne]
    by_cases hresponds : env.respondsToSetup x.className = true
    · simp [hresponds]
    · simp [hresponds]

/-- And only then. -/
theorem pass_of_returns {xs : List Setup}
    (h : Returns (setupEach env (xs.map fun x => ((x.className, some x.conf), x.index))) s) :
    ∀ x ∈ xs, env.respondsToSetup x.className = true → env.setup x = none := by
  induction xs generalizing s with
  | nil => exact fun _ hx => absurd hx List.not_mem_nil
  | cons x rest ih =>
    have hx : env.respondsToSetup x.className = true → env.setup x = none := by
      intro hresponds
      rw [List.map_cons, setupEach, if_pos hresponds] at h
      dsimp only at h
      cases hsetup : env.setup x with
      | none => rfl
      | some e =>
        rw [hsetup] at h
        exact absurd h (not_returns_of_error (run_bind_error (run_raise _ s)))
    rw [List.map_cons] at h
    rw [Returns, run_setupEach_cons x _ hx] at h
    exact List.forall_mem_cons.mpr ⟨hx, ih h⟩

/-! ### The whole start -/

variable {loaded : List String}

/-- The list after both passes: as far as the first one came, and all of it again. -/
theorem run_passes_missing {before rest : List AuthConf} {conf : AuthConf}
    (hsplit : confs = before ++ conf :: rest) (h : ∀ e ∈ before, e.className ∈ loaded)
    (hmissing : conf.className ∉ loaded) (hloads : Loads env loaded confs) : ∃ loaded',
    Eff.run (Eff.rescue (constantizeEach confs) (loadAfter env confs)) (.begin loaded) =
      (.ok (), ⟨loaded', before.map AuthConf.className ++ confs.map AuthConf.className, []⟩) := by
  have hfirst := @run_constantizeEach_missing (.begin loaded) before rest conf h hmissing
  rw [← hsplit] at hfirst
  obtain ⟨loaded', hsecond⟩ := @run_loadEach env
    ⟨loaded, before.map AuthConf.className, []⟩ confs hloads
  refine ⟨loaded', ?_⟩
  rw [run_rescue, hfirst]
  exact hsecond

/-- The list after the first pass alone. -/
theorem run_passes_loaded (h : ∀ conf ∈ confs, conf.className ∈ loaded) :
    Eff.run (Eff.rescue (constantizeEach confs) (loadAfter env confs)) (.begin loaded) =
      (.ok (), ⟨loaded, confs.map AuthConf.className, []⟩) := by
  have hfirst := @run_constantizeEach (.begin loaded) confs h
  rw [run_rescue, hfirst]
  rfl

/-- One of the passes makes the list alone: the first one, or the second one where the first
has come nowhere. -/
def OnePass (env : Classes) (loaded : List String) (confs : List AuthConf) : Prop :=
  (∀ conf ∈ confs, conf.className ∈ loaded) ∨
    (∀ conf ∈ confs.head?, conf.className ∉ loaded) ∧ Loads env loaded confs

theorem OnePass.run_passes (h : OnePass env loaded confs) : ∃ loaded',
    Eff.run (Eff.rescue (constantizeEach confs) (loadAfter env confs)) (.begin loaded) =
      (.ok (), ⟨loaded', confs.map AuthConf.className, []⟩) := by
  rcases h with hloaded | ⟨hhead, hloads⟩
  · exact ⟨loaded, run_passes_loaded hloaded⟩
  · cases confs with
    | nil => exact ⟨loaded, rfl⟩
    | cons conf rest =>
      exact run_passes_missing (List.nil_append _).symm (fun _ he => absurd he List.not_mem_nil)
        (hhead conf rfl) hloads

/-- What comes after the passes is the setup, by position. -/
theorem run_initAuthenticators_iff {loaded' auth auth' : List String}
    (hpasses : Eff.run (Eff.rescue (constantizeEach confs) (loadAfter env confs)) (.begin loaded) =
      (.ok (), ⟨loaded', auth, []⟩)) :
    Eff.run (initAuthenticators env (.array confs)) (.begin loaded) = (.ok auth', s) ↔
      auth' = auth ∧ Eff.run (setupEach env (zipNil auth confs).zipIdx) ⟨loaded', auth, []⟩ =
        (.ok (), s) := by
  rw [initAuthenticators]
  dsimp only [AuthSetting.confs]
  rw [run_bind_ok hpasses, run_bind_ok (run_get _)]
  rcases hsetup : Eff.run (setupEach env (zipNil auth confs).zipIdx) ⟨loaded', auth, []⟩ with ⟨o, t⟩
  cases o with
  | error e =>
    rw [run_bind_error hsetup]
    exact iff_of_false (fun h => by cases h) fun h => by cases h.2
  | ok a =>
    rw [run_bind_ok hsetup]
    constructor
    · rintro ⟨⟩
      exact ⟨rfl, rfl⟩
    · rintro ⟨rfl, ⟨⟩⟩
      rfl

/-- **Where one pass makes the list, every class is set up with its own entry.** -/
theorem run_initAuthenticators (h : OnePass env loaded confs) (hpass : SetupsPass env confs) :
    ∃ loaded', Eff.run (initAuthenticators env (.array confs)) (.begin loaded) =
      (.ok (confs.map AuthConf.className), ⟨loaded', confs.map AuthConf.className,
        (ownSetups confs).filter fun x => env.respondsToSetup x.className⟩) := by
  obtain ⟨loaded', hpasses⟩ := h.run_passes
  refine ⟨loaded', (run_initAuthenticators_iff hpasses).mpr ⟨rfl, ?_⟩⟩
  rw [zipIdx_zipNil]
  exact run_setupEach hpass

/-- A start that finishes has gone through one of the passes, or through both. -/
theorem passes_of_returns (h : Returns (initAuthenticators env (.array confs)) (.begin loaded)) :
    (∀ conf ∈ confs, conf.className ∈ loaded) ∨ Loads env loaded confs := by
  rcases exists_missing loaded confs with hloaded | ⟨before, conf, rest, hsplit, hbefore, hmissing⟩
  · exact Or.inl hloaded
  · right
    have hfirst := @run_constantizeEach_missing (.begin loaded) before rest conf hbefore hmissing
    rw [← hsplit] at hfirst
    obtain ⟨_, s, hpasses, -⟩ := returns_bind_iff.mp h
    rw [run_rescue, hfirst] at hpasses
    exact @loads_of_returns env ⟨loaded, before.map AuthConf.className, []⟩ confs ⟨_, s, hpasses⟩

/-- One that finishes with the right list has made it in one pass. -/
theorem onePass_of_auth
    (h : Eff.run (initAuthenticators env (.array confs)) (.begin loaded) =
      (.ok (confs.map AuthConf.className), s)) : OnePass env loaded confs := by
  rcases exists_missing loaded confs with hloaded | ⟨before, conf, rest, hsplit, hbefore, hmissing⟩
  · exact Or.inl hloaded
  · have hloads : Loads env loaded confs := by
      refine (passes_of_returns ⟨_, s, h⟩).resolve_left fun hloaded => hmissing (hloaded conf ?_)
      rw [hsplit]
      exact List.mem_append_right _ List.mem_cons_self
    obtain ⟨loaded', hpasses⟩ := run_passes_missing hsplit hbefore hmissing hloads
    -- what the first pass has found would be in the list twice
    have htwice := ((run_initAuthenticators_iff hpasses).mp h).1
    have hnil : before = [] := by simpa using htwice
    refine Or.inr ⟨fun e he => ?_, hloads⟩
    rw [hsplit, hnil, List.nil_append, List.head?_cons, Option.mem_some_iff] at he
    rwa [← he]

end Passes

/-- **The start does what it is there for iff, wherever all classes can be loaded, one pass
makes the list and no class objects to its own entry.** -/
theorem aligned_iff {env : Classes} {loaded : List String} {confs : List AuthConf} :
    Aligned env loaded confs ↔ (CanLoad env loaded confs →
      OnePass env loaded confs ∧ SetupsPass env confs) := by
  constructor
  · intro h hcan
    obtain ⟨auth, s, hrun⟩ := h.finishes hcan
    obtain ⟨rfl, -⟩ := h.auth auth s hrun
    have honePass := onePass_of_auth hrun
    obtain ⟨loaded', hpasses⟩ := honePass.run_passes
    have hsetup := ((run_initAuthenticators_iff hpasses).mp hrun).2
    rw [zipIdx_zipNil] at hsetup
    exact ⟨honePass, pass_of_returns ⟨_, s, hsetup⟩⟩
  · intro h
    refine ⟨fun auth s hrun => ?_, fun hcan => ?_⟩
    · have hcan : CanLoad env loaded confs := by
        rcases passes_of_returns ⟨auth, s, hrun⟩ with hloaded | hloads
        · exact fun conf hconf => Or.inl (hloaded conf hconf)
        · exact hloads.canLoad
      obtain ⟨honePass, hpass⟩ := h hcan
      obtain ⟨loaded', hown⟩ := run_initAuthenticators honePass hpass
      rw [hown] at hrun
      cases hrun
      exact ⟨rfl, rfl⟩
    · obtain ⟨honePass, hpass⟩ := h hcan
      obtain ⟨loaded', hown⟩ := run_initAuthenticators honePass hpass
      exact ⟨_, _, hown⟩

/-- A list that is aligned is what `POST /login` relies on: each authenticator is configured
with its own entry. -/
theorem loginAuthenticators_aligned (validate : Setup → Authenticator) (confs : List AuthConf) :
    loginAuthenticators validate (confs.map AuthConf.className) confs =
      (ownSetups confs).map validate := by
  rw [loginAuthenticators, zipIdx_zipNil, List.map_map]
  rfl

/-- The classes of the distribution that are loaded by their names, and one of an extension. -/
def someClasses : Classes where
  underscore := fun name => if name = "CASServer::Authenticators::NTLM" then
    "cas_server/authenticators/ntlm" else "cas_server/authenticators/sql"
  require := fun path => if path = "casserver/authenticators/ntlm" then
    some ["CASServer::Authenticators::NTLM"] else
    if path = "casserver/authenticators/sql" then some ["CASServer::Authenticators::SQL"] else none
  respondsToSetup := fun _ => true
  setup := fun _ => none

/-- A class that is known, and one that has to be loaded. -/
def sqlThenNtlm : List AuthConf :=
  [⟨"CASServer::Authenticators::SQL", none, [("database", "users")]⟩,
   ⟨"CASServer::Authenticators::NTLM", none, []⟩]

/-- The first class is in the list twice, and is set up with the entry of the second; for the
second there is no entry left, and the start raises. -/
theorem not_aligned_sqlThenNtlm :
    CanLoad someClasses ["CASServer::Authenticators::SQL"] sqlThenNtlm ∧
      (Eff.run (initAuthenticators someClasses (.array sqlThenNtlm))
        (.begin ["CASServer::Authenticators::SQL"])).1 = .error .noMethodError ∧
      (Eff.run (initAuthenticators someClasses (.array sqlThenNtlm))
        (.begin ["CASServer::Authenticators::SQL"])).2.setups =
          sqlThenNtlm.zipIdx.map (fun p => ⟨"CASServer::Authenticators::SQL", p.1, p.2⟩) ∧
      ¬ Aligned someClasses ["CASServer::Authenticators::SQL"] sqlThenNtlm := by
  have hcan : CanLoad someClasses ["CASServer::Authenticators::SQL"] sqlThenNtlm := by
    intro conf hconf
    rcases List.mem_cons.mp hconf with rfl | hrest
    · exact Or.inl (List.mem_singleton_self _)
    · obtain rfl := List.mem_singleton.mp hrest
      exact Or.inr ⟨_, hconf, ["CASServer::Authenticators::NTLM"], by decide +kernel,
        List.mem_singleton_self _⟩
  have hraises : (Eff.run (initAuthenticators someClasses (.array sqlThenNtlm))
      (.begin ["CASServer::Authenticators::SQL"])).1 = .error .noMethodError := by decide +kernel
  refine ⟨hcan, hraises, by decide +kernel, fun haligned => ?_⟩
  obtain ⟨auth, s, hrun⟩ := haligned.finishes hcan
  rw [hrun] at hraises
  cases hraises

end BkPlatform.Cas
