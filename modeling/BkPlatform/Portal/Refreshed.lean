import BkPlatform.Lib.Overwrite
import BkPlatform.Portal.Mirrored

/-!
# Refreshing a row and creating it

Each synchronisation names the columns of its table twice, once for the row that is there
and once for the one that is not.  `Template.sync` and `ServiceOffering.sync` read both
from the same keys.  `DiskOffering.sync` reads the storage type from `storagetype` when it
creates a row, and from `storage` when it refreshes one, so that the next synchronisation
undoes what the last one has stored.

## Main definitions

* `ListReply.SyncedOnce` — a second synchronisation with the reply changes nothing.
* `ListReply.Agree` — the columns are the same, refreshed or created.
* `ListReply.sameKeys` — the condition: both keys of an element have one value.

## Main results

* `consistent_iff` — **exactly when the two paths agree and a second synchronisation
  changes nothing.**
-/

namespace BkPlatform.Portal

open Eff

/-! ### The columns -/

/-- The columns both paths write, with the cloud id. -/
def Template.values (t : Template) :
    Option String × Option String × Option String × Option String :=
  (t.templateId, t.name, t.ostypename, t.details)

/-- The same of a disk offering. -/
def DiskOffering.values (d : DiskOffering) : Option String × Option String × Option String :=
  (d.diskOfferingId, d.disksize, d.storagetype)

/-- The same of a service offering. -/
def ServiceOffering.values (s : ServiceOffering) :
    Option String × Option ℤ × Option ℤ × Option ℤ × Option Bool :=
  (s.serviceOfferingId, s.cpunumber, s.cpuspeed, s.memory, s.offerha)

/-- Whatever row with its id an element refreshes, and whatever key it creates one with, the
values are the same. -/
def Agrees {ρ ε ν : Type} {key : ρ → ℕ} (m : Mirror ρ ε Raised key) (values : ρ → ν) (e : ε) :
    Prop :=
  ∀ f make, m.update e = .ok f → m.create e = .ok make →
    ∀ row n, m.remoteId row = m.id e → values (f.1 row) = values (make.1 n)

/-- The two paths agree on every element. -/
def ListReply.Agree : ListReply → Prop
  | .template es => ∀ e ∈ es, Agrees templates Template.values e
  | .diskOffering es => ∀ e ∈ es, Agrees diskOfferings DiskOffering.values e
  | .serviceOffering es => ∀ e ∈ es, Agrees serviceOfferings ServiceOffering.values e

/-- Whatever was in the tables, a second synchronisation leaves them as the first has. -/
def ListReply.SyncedOnce (r : ListReply) : Prop :=
  ∀ db, (run r.sync (run r.sync db).2).2 = (run r.sync db).2

/-- **Refreshing and creating store the same**, row by row and over a whole run. -/
structure ListReply.Consistent (r : ListReply) : Prop where
  once : r.SyncedOnce
  agree : r.Agree

/-- A disk offering that can be created has the same value under both keys. -/
def ListReply.sameKeys : ListReply → Bool
  | .template _ => true
  | .diskOffering es => es.all fun e => e.created.isNone || e.storage == e.storagetype
  | .serviceOffering _ => true

/-! ### The three mirrors overwrite -/

theorem overwriting_templates : templates.Overwriting where
  toLawful := lawful_templates
  absorbs := by
    intro e e' f f' hf hf' row
    obtain rfl := Except.ok.inj hf
    obtain rfl := Except.ok.inj hf'
    rfl
  updates := fun _ _ _ => ⟨_, rfl⟩

theorem overwriting_diskOfferings : diskOfferings.Overwriting where
  toLawful := lawful_diskOfferings
  absorbs := by
    intro e e' f f' hf hf' row
    obtain rfl := Except.ok.inj hf
    obtain rfl := Except.ok.inj hf'
    rfl
  updates := fun _ _ _ => ⟨_, rfl⟩

theorem overwriting_serviceOfferings : serviceOfferings.Overwriting where
  toLawful := lawful_serviceOfferings
  absorbs := by
    intro e e' f f' hf hf' row
    obtain ⟨offerha, -, hrow⟩ := update_serviceOfferings hf
    obtain ⟨offerha', -, hrow'⟩ := update_serviceOfferings hf'
    rw [hrow', hrow', hrow]
  updates := by
    intro e make hmake
    obtain ⟨offerha, created, hflag, -, -⟩ := create_serviceOfferings hmake
    have hflagged : flagOf e.offerha = .ok (toBool offerha) := by rw [hflag]; rfl
    simp [serviceOfferings, hflagged, bind, Except.bind, pure, Except.pure]

/-! ### One element -/

theorem agrees_template (e : TemplateElement) : Agrees templates Template.values e := by
  intro f make hf hmake row n hrow
  obtain rfl := Except.ok.inj hf
  obtain ⟨created, -, hmade⟩ := create_templates hmake
  have hid : row.templateId = e.id := hrow
  simp [hmade, Template.values, hid]

theorem agrees_serviceOffering (e : ServiceOfferingElement) :
    Agrees serviceOfferings ServiceOffering.values e := by
  intro f make hf hmake row n hrow
  obtain ⟨offerha, hflag, hupdated⟩ := update_serviceOfferings hf
  obtain ⟨offerha', created, hflag', -, hmade⟩ := create_serviceOfferings hmake
  obtain rfl := Option.some.inj (hflag.symm.trans hflag')
  have hid : row.serviceOfferingId = e.id := hrow
  simp [hupdated, hmade, ServiceOffering.values, hid]

theorem settled_template (e : TemplateElement) : templates.Settled e := by
  intro f make hf hmake n
  obtain rfl := Except.ok.inj hf
  obtain ⟨created, -, hmade⟩ := create_templates hmake
  rw [hmade]

theorem settled_serviceOffering (e : ServiceOfferingElement) : serviceOfferings.Settled e := by
  intro f make hf hmake n
  obtain ⟨offerha, hflag, hupdated⟩ := update_serviceOfferings hf
  obtain ⟨offerha', created, hflag', -, hmade⟩ := create_serviceOfferings hmake
  obtain rfl := Option.some.inj (hflag.symm.trans hflag')
  rw [hupdated, hmade]

/-- A disk offering agrees if both keys have one value, and only then if it can be created. -/
theorem agrees_diskOffering {e : DiskOfferingElement} :
    Agrees diskOfferings DiskOffering.values e ↔
      (e.created.isNone || e.storage == e.storagetype) = true := by
  rw [Bool.or_eq_true, Option.isNone_iff_eq_none, beq_iff_eq]
  constructor
  · intro h
    cases hdate : e.created with
    | none => exact Or.inl rfl
    | some created =>
      have hmake : ∃ make, diskOfferings.create e = .ok make := by
        simp [diskOfferings, dateOf, hdate, bind, Except.bind, pure, Except.pure]
      obtain ⟨make, hmake⟩ := hmake
      obtain ⟨created', -, hmade⟩ := create_diskOfferings hmake
      have hsame := h _ make rfl hmake ⟨1, e.id, none, none, none⟩ 1 rfl
      rw [hmade] at hsame
      exact Or.inr (congrArg (fun v => v.2.2) hsame)
  · intro h f make hf hmake row n hrow
    obtain rfl := Except.ok.inj hf
    obtain ⟨created, hdate, hmade⟩ := create_diskOfferings hmake
    have hid : row.diskOfferingId = e.id := hrow
    rcases h with hnone | hkeys
    · rw [hdate] at hnone
      cases hnone
    · simp [hmade, DiskOffering.values, hid, hkeys]

theorem settled_diskOffering {e : DiskOfferingElement}
    (h : (e.created.isNone || e.storage == e.storagetype) = true) : diskOfferings.Settled e := by
  rw [Bool.or_eq_true, Option.isNone_iff_eq_none, beq_iff_eq] at h
  intro f make hf hmake n
  obtain rfl := Except.ok.inj hf
  obtain ⟨created, hdate, hmade⟩ := create_diskOfferings hmake
  rcases h with hnone | hkeys
  · rw [hdate] at hnone
    cases hnone
  · rw [hmade]
    simp [hkeys]

/-! ### The whole reply -/

/-- A second synchronisation of a table whose updates agree with its creations. -/
theorem synced_onTable {ρ ε : Type} {key : ρ → ℕ} {m : Mirror ρ ε Raised key}
    (hm : m.Overwriting) (get : Db → Table ρ key) (set : Db → Table ρ key → Db)
    (hget : ∀ db t, get (set db t) = t) (hset : ∀ db t t', set (set db t) t' = set db t')
    {es : List ε} (hsettled : ∀ e ∈ es, m.Settled e) (db : Db) :
    (run (onTable get set (m.sync es)) (run (onTable get set (m.sync es)) db).2).2 =
      (run (onTable get set (m.sync es)) db).2 := by
  have hrun : ∀ db, (run (onTable get set (m.sync es)) db).2 =
      set db (run (m.sync es) (get db)).2 := fun _ => rfl
  rw [hrun, hrun, hget, hset, m.run_sync_twice hm hsettled]

/-- A reply that cannot be read changes nothing, the first time and the second. -/
theorem syncedOnce_of_raise {r : ListReply} {ex : Raised} (h : r.sync = Eff.raise ex) :
    r.SyncedOnce := by
  intro db
  rw [h]
  rfl

theorem syncedOnce_of_sameKeys {r : ListReply} (h : r.sameKeys = true) : r.SyncedOnce := by
  cases r with
  | template es =>
    cases es with
    | nil => exact syncedOnce_of_raise rfl
    | cons e es =>
      exact synced_onTable overwriting_templates Db.templates
        (fun db t => { db with templates := t }) (fun _ _ => rfl) (fun _ _ _ => rfl)
        fun e _ => settled_template e
  | diskOffering es =>
    match es with
    | [] => exact syncedOnce_of_raise rfl
    | [e] => exact syncedOnce_of_raise rfl
    | e :: e' :: es =>
      exact synced_onTable overwriting_diskOfferings Db.diskOfferings
        (fun db t => { db with diskOfferings := t }) (fun _ _ => rfl) (fun _ _ _ => rfl)
        fun e he => settled_diskOffering (List.all_eq_true.mp h e he)
  | serviceOffering es =>
    match es with
    | [] => exact syncedOnce_of_raise rfl
    | [e] => exact syncedOnce_of_raise rfl
    | e :: e' :: es =>
      exact synced_onTable overwriting_serviceOfferings Db.serviceOfferings
        (fun db t => { db with serviceOfferings := t }) (fun _ _ => rfl) (fun _ _ _ => rfl)
        fun e _ => settled_serviceOffering e

theorem agree_iff_sameKeys {r : ListReply} : r.Agree ↔ r.sameKeys = true := by
  cases r with
  | template es => exact iff_of_true (fun e _ => agrees_template e) rfl
  | diskOffering es =>
    rw [ListReply.sameKeys, List.all_eq_true]
    exact forall₂_congr fun e _ => agrees_diskOffering
  | serviceOffering es => exact iff_of_true (fun e _ => agrees_serviceOffering e) rfl

/-- **The two paths agree exactly if no disk offering that can be created has two values
under the two keys.** -/
theorem consistent_iff {r : ListReply} : r.Consistent ↔ r.sameKeys = true :=
  ⟨fun h => agree_iff_sameKeys.mp h.agree,
    fun h => ⟨syncedOnce_of_sameKeys h, agree_iff_sameKeys.mpr h⟩⟩

/-- Two disk offerings as the cloud lists them: there is no key `storage`. -/
def twoDiskOfferings : ListReply :=
  .diskOffering [⟨some "do-1", some "20", some "shared", none, some "2013"⟩,
    ⟨some "do-2", some "40", some "local", none, some "2013"⟩]

/-- **The second synchronisation forgets the storage types.** -/
theorem storagetype_forgotten : ¬ twoDiskOfferings.SyncedOnce ∧ ¬ twoDiskOfferings.Agree := by
  constructor
  · intro h
    have hrows := congrArg (fun db => db.diskOfferings.rows.map DiskOffering.storagetype)
      (h emptyDb)
    exact absurd hrows (by decide)
  · rw [agree_iff_sameKeys]
    decide

end BkPlatform.Portal
