import BkPlatform.Lib.CheckThenInsert
import BkPlatform.Portal.References

/-!
# Names of instances under concurrency

`create` asks the table for the name before it inserts the row, in two statements,
and the table has no unique index on the column.  So a request holds its name from
its validation to its insertion without anybody seeing it: the requests check, then
insert, and what is known of that applies.

## Main definitions

* `CreateRequest`, `Draft`, `CreateStage` — the requests, and how far they have come.
* `Desk`, `CreateStep`, `createStep` — the portal, and the steps of the requests.
* `LoneValidation` — no other request holds the name.
* `NamesUnique` — no two rows have the same name.

## Main results

* `exec_createAlone` — a request that is not interleaved does what `create` does.
* `namesUnique_of_lone` — **the names are unique in every run whose validations are lone.**
* `not_namesUnique_of_overlap` — after a validation that is not, they may be so no longer.
-/

namespace BkPlatform.Portal

open Run CheckThenInsert

variable {ι : Type*}

/-! ### Requests and their steps -/

/-- A request to `create`. -/
structure CreateRequest where
  user : Option CurrentUser
  params : NewInstance
  now : String
  deriving DecidableEq, Repr

/-- What the row is made from. -/
structure Draft where
  user : CurrentUser
  username : String
  displayname : String
  now : String
  params : NewInstance
  deriving DecidableEq, Repr

/-- `Instance.new`. -/
def Draft.row (d : Draft) : ℕ → Instance := d.params.row d.user d.username d.displayname d.now

/-- The name the row will have. -/
def Draft.name (d : Draft) : String := d.username ++ "-" ++ d.displayname

/-- The parameters of the new row, if there is a user with a name and a displayname. -/
def CreateRequest.draft (q : CreateRequest) : Except Raised Draft :=
  match q.user with
  | none => .error .noMethodError
  | some user =>
    match user.username, q.params.displayname with
    | none, _ => .error .noMethodError
    | some _, none => .error .typeError
    | some username, some displayname => .ok ⟨user, username, displayname, q.now, q.params⟩

/-- The validations, on the tables as they are. -/
def Draft.valid (d : Draft) (db : Db) : Bool :=
  (d.row 0).valid db.catalogue (db.instances.rows.map Instance.name)

/-- The insertion. -/
def Draft.insert (d : Draft) (db : Db) : Db :=
  { db with instances := db.instances.insert d.row fun _ => rfl }

/-- How far a request has come. -/
inductive CreateStage
  /-- Before the validations. -/
  | waiting
  /-- The row is valid, and not inserted yet. -/
  | validated (d : Draft)
  | finished (result : Except Raised Unit)
  deriving DecidableEq

/-- The portal, and the requests to `create`. -/
structure Desk (ι : Type*) where
  db : Db
  stage : ι → CreateStage

/-- One step of a request. -/
inductive CreateStep (ι : Type*)
  | validate (i : ι)
  | insert (i : ι)

/-- Where the validations lead. -/
def CreateRequest.validated (q : CreateRequest) (db : Db) : CreateStage :=
  match q.draft with
  | .error e => .finished (.error e)
  | .ok d => if d.valid db then .validated d else .finished (.ok ())

section Steps

variable [DecidableEq ι]

/-- Request `i` moves on. -/
def Desk.put (s : Desk ι) (i : ι) (stage : CreateStage) : Desk ι :=
  { s with stage := Function.update s.stage i stage }

/-- The steps of `create`. -/
def createStep (requests : ι → CreateRequest) (s : Desk ι) : CreateStep ι → Option (Desk ι)
  | .validate i =>
    match s.stage i with
    | .waiting => some (s.put i ((requests i).validated s.db))
    | _ => none
  | .insert i =>
    match s.stage i with
    | .validated d => some ({ s with db := d.insert s.db }.put i (.finished (.ok ())))
    | _ => none

end Steps

/-- The portal before any of the requests. -/
def Desk.begin (ι : Type*) (db : Db) : Desk ι := ⟨db, fun _ => .waiting⟩

/-- No two rows have the same name. -/
def NamesUnique (db : Db) : Prop := (db.instances.rows.map Instance.name).Nodup

/-- The row a request holds between its steps. -/
def CreateStage.held : CreateStage → Option Draft
  | .validated d => some d
  | _ => none

/-- A name passes the validations only while no other request holds it. -/
def LoneValidation (requests : ι → CreateRequest) (s : Desk ι) : CreateStep ι → Prop
  | .validate i => ∀ d ∈ ((requests i).validated s.db).held, ∀ j, ∀ d' ∈ (s.stage j).held,
      d'.name ≠ d.name
  | .insert _ => True

instance (requests : Bool → CreateRequest) (s : Desk Bool) (a : CreateStep Bool) :
    Decidable (LoneValidation requests s a) := by
  cases a <;> unfold LoneValidation <;> infer_instance

/-! ### A request alone -/

/-- `create` is its two steps. -/
theorem run_create (q : CreateRequest) (db : Db) :
    Eff.run (create q.user q.params q.now) db =
      match q.draft with
      | .error e => (.error e, db)
      | .ok d => (.ok (), if d.valid db then d.insert db else db) := by
  obtain ⟨user, params, now⟩ := q
  simp only [create, CreateRequest.draft]
  cases user with
  | none => rfl
  | some user =>
    dsimp only
    cases hname : user.username with
    | none => rfl
    | some username =>
      cases hdisplay : params.displayname with
      | none => rfl
      | some displayname =>
        dsimp only
        rw [Eff.run_bind_ok (Eff.run_get db)]
        by_cases hvalid : (params.row user username displayname now 0).valid db.catalogue
            (db.instances.rows.map Instance.name) = true
        · have hdraft : Draft.valid ⟨user, username, displayname, now, params⟩ db = true := hvalid
          rw [if_pos hvalid, if_pos hdraft]
          rfl
        · have hdraft : ¬ Draft.valid ⟨user, username, displayname, now, params⟩ db = true := hvalid
          rw [if_neg hvalid, if_neg hdraft]
          rfl

section Alone

variable [DecidableEq ι] {requests : ι → CreateRequest} {s : Desk ι} {i : ι}

/-- **A request that is not interleaved does what `create` does.** -/
theorem exec_createAlone (hi : s.stage i = .waiting) : ∃ n t result,
    exec (createStep requests) s ([.validate i, .insert i].take n) = some t ∧
      t.stage i = .finished result ∧
      Eff.run (create (requests i).user (requests i).params (requests i).now) s.db =
        (result, t.db) := by
  rw [run_create]
  cases hdraft : (requests i).draft with
  | error e =>
    refine ⟨1, s.put i (.finished (.error e)), _, ?_, Function.update_self i _ _, rfl⟩
    simp [createStep, hi, CreateRequest.validated, hdraft]
  | ok d =>
    dsimp only
    by_cases hvalid : d.valid s.db = true
    · let t : Desk ι := { s.put i (.validated d) with db := d.insert s.db }
      refine ⟨2, t.put i (.finished (.ok ())), _, ?_, Function.update_self i _ _, ?_⟩
      · simp [createStep, hi, CreateRequest.validated, hdraft, hvalid, Desk.put, t]
      · rw [if_pos hvalid]
        rfl
    · refine ⟨1, s.put i (.finished (.ok ())), _, ?_, Function.update_self i _ _, ?_⟩
      · simp [createStep, hi, CreateRequest.validated, hdraft, hvalid]
      · rw [if_neg hvalid]
        rfl

end Alone

/-! ### Check, then insert -/

/-- Where a request stands between the check of its name and the insertion. -/
def CreateStage.phase : CreateStage → Phase String
  | .waiting => .idle
  | .validated d => .holding d.name
  | .finished _ => .done

/-- The names of the rows, and of the requests between their steps. -/
def Desk.names (s : Desk ι) : Store ι String where
  keys := s.db.instances.rows.map Instance.name
  phase := CreateStage.phase ∘ s.stage

section Race

variable [DecidableEq ι] {requests : ι → CreateRequest} {s t : Desk ι}

theorem names_put (s : Desk ι) (i : ι) (stage : CreateStage) :
    (s.put i stage).names =
      { s.names with phase := Function.update s.names.phase i stage.phase } := by
  simp only [Desk.names, Desk.put, Function.comp_update]

/-- A name that passes the validations is not in the table. -/
theorem Draft.name_of_valid {d : Draft} {db : Db} (h : d.valid db = true) :
    d.name ∉ db.instances.rows.map Instance.name := Portal.name_of_valid h

theorem valid_of_validated {q : CreateRequest} {d : Draft} {db : Db}
    (h : q.validated db = .validated d) : d.valid db = true := by
  unfold CreateRequest.validated at h
  split at h
  · cases h
  · split at h
    · next hvalid =>
      obtain rfl := CreateStage.validated.inj h
      exact hvalid
    · cases h

/-- Validations that pass are a check of the name. -/
theorem check_move {i : ι} {d : Draft} (hi : s.stage i = .waiting)
    (hholds : (requests i).validated s.db = .validated d) :
    move s.names (.check i d.name) = some (s.put i (.validated d)).names := by
  have hidle : s.names.phase i = .idle := congrArg CreateStage.phase hi
  have hnew : d.name ∉ s.names.keys := Draft.name_of_valid (valid_of_validated hholds)
  rw [names_put]
  simp only [move, hidle, if_neg hnew]
  rfl

/-- The validations are a check of the name, unless they fail for another reason. -/
theorem validate_move {i : ι} (hi : s.stage i = .waiting)
    (hlone : LoneValidation requests s (.validate i)) :
    ∃ m, Lone s.names m ∧
      move s.names m = some (s.put i ((requests i).validated s.db)).names := by
  have hidle : s.names.phase i = .idle := congrArg CreateStage.phase hi
  have hskip : ∀ result, ∃ m, Lone s.names m ∧
      move s.names m = some (s.put i (.finished result)).names := by
    intro result
    refine ⟨.skip i, trivial, ?_⟩
    rw [names_put]
    simp only [move, hidle]
    rfl
  cases hdraft : (requests i).draft with
  | error e =>
    have hend : (requests i).validated s.db = .finished (.error e) := by
      simp [CreateRequest.validated, hdraft]
    rw [hend]
    exact hskip _
  | ok d =>
    by_cases hvalid : d.valid s.db = true
    · have hholds : (requests i).validated s.db = .validated d := by
        simp [CreateRequest.validated, hdraft, hvalid]
      refine ⟨.check i d.name, fun _ j hj => ?_, hholds ▸ check_move hi hholds⟩
      -- `j` is between its steps with the same name
      cases hstage : s.stage j with
      | waiting => simp [Desk.names, hstage, CreateStage.phase] at hj
      | validated d' =>
        have hsame : d'.name = d.name := by
          simpa [Desk.names, hstage, CreateStage.phase] using hj
        have hheld : d' ∈ (s.stage j).held := by rw [hstage]; rfl
        rw [LoneValidation, hholds] at hlone
        exact hlone d rfl j d' hheld hsame
      | finished result => simp [Desk.names, hstage, CreateStage.phase] at hj
    · have hend : (requests i).validated s.db = .finished (.ok ()) := by
        simp [CreateRequest.validated, hdraft, hvalid]
      rw [hend]
      exact hskip _

/-- The insertion of the row is that of its name. -/
theorem insert_move {i : ι} {d : Draft} (hi : s.stage i = .validated d) :
    move s.names (.insert i) =
      some ({ s with db := d.insert s.db }.put i (.finished (.ok ()))).names := by
  have hholds : s.names.phase i = .holding d.name := congrArg CreateStage.phase hi
  have hkeys : (d.insert s.db).instances.rows.map Instance.name = s.names.keys ++ [d.name] := by
    show (s.db.instances.rows ++ [d.row _]).map Instance.name = _
    rw [List.map_append]
    rfl
  have hmove : move s.names (.insert i) =
      some ⟨s.names.keys ++ [d.name], Function.update s.names.phase i .done⟩ := by
    simp only [move, hholds]
  rw [hmove, names_put]
  refine congrArg some ?_
  rw [← hkeys]
  rfl

/-- **The steps of the requests are steps of the race for the names.** -/
theorem createStep_move {a : CreateStep ι} (ha : LoneValidation requests s a)
    (hstep : createStep requests s a = some t) :
    ∃ m, Lone s.names m ∧ move s.names m = some t.names := by
  cases a with
  | validate i =>
    simp only [createStep] at hstep
    split at hstep
    · next hi =>
      obtain rfl := Option.some.inj hstep
      exact validate_move hi ha
    · cases hstep
  | insert i =>
    simp only [createStep] at hstep
    split at hstep
    · next d hi =>
      obtain rfl := Option.some.inj hstep
      exact ⟨.insert i, trivial, insert_move hi⟩
    · cases hstep

/-- **The names stay unique in every run in which a name passes the validations only while
no other request holds it.** -/
theorem namesUnique_of_lone {db : Db} (hdb : NamesUnique db) {steps : List (CreateStep ι)}
    (hal : Along (createStep requests) (LoneValidation requests) (.begin ι db) steps)
    (hrun : exec (createStep requests) (.begin ι db) steps = some t) : NamesUnique t.db := by
  obtain ⟨moves, hmoves, hexec⟩ := Run.simulate (I := fun _ => True) Desk.names
    (fun _ _ _ _ _ _ => trivial) (fun _ _ _ _ ha hstep => Or.inr (createStep_move ha hstep))
    trivial hal hrun
  exact nodup_of_lone (s := (Desk.begin ι db).names) hdb (fun _ => rfl) hmoves hexec

/-- A validation that is not lone can be followed by two rows of one name. -/
theorem not_namesUnique_of_overlap {i j : ι} {d d' : Draft} (hi : s.stage i = .waiting)
    (hvalidated : (requests i).validated s.db = .validated d) (hj : s.stage j = .validated d')
    (hsame : d'.name = d.name) :
    ∃ t, exec (createStep requests) s [.validate i, .insert i, .insert j] = some t ∧
      ¬ NamesUnique t.db := by
  have hne : j ≠ i := by
    rintro rfl
    rw [hi] at hj
    cases hj
  let s₁ : Desk ι := s.put i (.validated d)
  let s₂ : Desk ι := { s₁ with db := d.insert s₁.db }.put i (.finished (.ok ()))
  let s₃ : Desk ι := { s₂ with db := d'.insert s₂.db }.put j (.finished (.ok ()))
  have hi₁ : s₁.stage i = .validated d := Function.update_self i _ _
  have hj₂ : s₂.stage j = .validated d' := by
    simp [s₂, s₁, Desk.put, Function.update_of_ne hne, hj]
  have hrun : exec (createStep requests) s [.validate i, .insert i, .insert j] = some s₃ := by
    simp [createStep, hi, hvalidated, Desk.put, Function.update_of_ne hne, hj, s₃, s₂, s₁]
  refine ⟨s₃, hrun, fun hunique => ?_⟩
  -- the same in the race for the names
  have hidle : s.names.phase i = .idle := congrArg CreateStage.phase hi
  have hholds : s.names.phase j = .holding d.name := by
    rw [← hsame]
    exact congrArg CreateStage.phase hj
  obtain ⟨u, hmoves, hnodup⟩ := not_nodup_of_overlap hidle hholds
    (Draft.name_of_valid (valid_of_validated hvalidated))
  have hexec : exec move s.names [.check i d.name, .insert i, .insert j] = some s₃.names := by
    simp [check_move hi hvalidated, insert_move hi₁, insert_move hj₂, s₃, s₂, s₁]
  rw [hexec] at hmoves
  obtain rfl := Option.some.inj hmoves
  exact hnodup hunique

end Race

/-- The portal after the first synchronisation. -/
def stocked : Db := dbStep emptyDb firstSync

/-- The form is sent twice. -/
def twoClicks (_ : Bool) : CreateRequest :=
  ⟨some ⟨7, some "an"⟩, ⟨some "desk", some 1, none, some 1⟩, "2013-08-10T00:00:00+0700"⟩

/-- Both validations come before the insertions. -/
def bothValidate : List (CreateStep Bool) :=
  [.validate true, .validate false, .insert true, .insert false]

/-- **Two rows have the same name.** -/
theorem one_name_twice :
    ¬ ∀ t, exec (createStep twoClicks) (.begin Bool stocked) bothValidate = some t →
      NamesUnique t.db := by
  intro hall
  have hrows : (exec (createStep twoClicks) (.begin Bool stocked) bothValidate).map
      (fun t => t.db.instances.rows.map Instance.name) = some ["an-desk", "an-desk"] := by
    decide +kernel
  obtain ⟨t, ht, hnames⟩ := Option.map_eq_some_iff.mp hrows
  have hunique := hall t ht
  rw [NamesUnique, hnames] at hunique
  exact absurd hunique (by decide)

/-- One after the other the second is not valid. -/
theorem namesUnique_inTurn :
    ∃ t, exec (createStep twoClicks) (.begin Bool stocked)
      [.validate true, .insert true, .validate false] = some t ∧ NamesUnique t.db := by
  have hruns : (exec (createStep twoClicks) (.begin Bool stocked)
      [.validate true, .insert true, .validate false]).isSome = true := by decide +kernel
  have hempty : NamesUnique stocked := by
    have hnone : stocked.instances.rows.map Instance.name = [] := by decide +kernel
    rw [NamesUnique, hnone]
    exact List.nodup_nil
  obtain ⟨t, hrun⟩ := Option.isSome_iff_exists.mp hruns
  exact ⟨t, hrun, namesUnique_of_lone hempty (by decide +kernel) hrun⟩

end BkPlatform.Portal
