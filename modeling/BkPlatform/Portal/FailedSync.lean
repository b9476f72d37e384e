import BkPlatform.Portal.References
import BkPlatform.Portal.Refreshed

/-!
# A synchronisation that fails

`HomeController#sync` rescues whatever one of its three steps raises and says that the
synchronisation has failed.  No step runs in a transaction: the tables of the steps before
the one that raises have been synchronised, and its own has lost the rows its list does not
have and got the elements before the one that cannot be written.

So a failed synchronisation leaves the tables as they were exactly if there was nothing to
do before it failed.

## Main definitions

* `synchronise` — the three steps.
* `SameCatalogue` — the three tables are the same.
* `NothingToDo` — no step that is reached deletes, creates or changes a row.

## Main results

* `sameCatalogue_iff` — **exactly when a synchronisation leaves the tables as they were.**
-/

namespace BkPlatform.Portal

open Eff

/-- The three steps of `HomeController#sync`. -/
def synchronise (lists : Lists) : Eff Raised Db Unit := do
  Template.sync lists.templates
  DiskOffering.sync lists.diskOfferings
  ServiceOffering.sync lists.serviceOfferings

/-- `HomeController#sync` takes its failure branch. -/
def Fails (lists : Lists) (db : Db) : Prop := ¬ Returns (synchronise lists) db

/-- The failure branch takes nothing back. -/
theorem sync_eq (lists : Lists) : sync lists = rescue (synchronise lists) fun _ => pure () := rfl

/-- The three tables of the catalogue are the same. -/
structure SameCatalogue (db db' : Db) : Prop where
  templates : db'.templates = db.templates
  diskOfferings : db'.diskOfferings = db.diskOfferings
  serviceOfferings : db'.serviceOfferings = db.serviceOfferings

/-- No step that is reached, and can read its list, deletes, creates or changes a row. -/
structure NothingToDo (lists : Lists) (db : Db) : Prop where
  templates : ∀ es, elements lists.templates = .ok es →
    Portal.templates.Untouched es db.templates
  diskOfferings : Returns (Template.sync lists.templates) db →
    ∀ es, severalElements lists.diskOfferings = .ok es →
      Portal.diskOfferings.Untouched es db.diskOfferings
  serviceOfferings : Returns (do
      Template.sync lists.templates
      DiskOffering.sync lists.diskOfferings) db →
    ∀ es, severalElements lists.serviceOfferings = .ok es →
      Portal.serviceOfferings.Untouched es db.serviceOfferings

/-! ### One step -/

/-- A step that reads its list and synchronises one table with it. -/
theorem same_onTable {ρ ε : Type} {key : ρ → ℕ} {m : Mirror ρ ε Raised key}
    (hm : m.Overwriting) (get : Db → Table ρ key) (set : Db → Table ρ key → Db)
    (hget : ∀ db t, get (set db t) = t) {read : Except Raised (List ε)} {x : Eff Raised Db Unit}
    (hraise : ∀ ex, read = .error ex → x = raise ex)
    (hsync : ∀ es, read = .ok es → x = onTable get set (m.sync es)) (db : Db) :
    get (run x db).2 = get db ↔ ∀ es, read = .ok es → m.Untouched es (get db) := by
  cases hread : read with
  | error ex =>
    rw [hraise ex hread]
    exact iff_of_true rfl fun es h => by cases h
  | ok es =>
    have hrun : (run (onTable get set (m.sync es)) db).2 =
        set db (run (m.sync es) (get db)).2 := rfl
    rw [hsync es hread, hrun, hget, Mirror.state_run_sync_eq_iff hm]
    exact ⟨fun h es' hes => by obtain rfl := Except.ok.inj hes; exact h, fun h => h es rfl⟩

theorem same_template_iff (reply : Option (List TemplateElement)) (db : Db) :
    (run (Template.sync reply) db).2.templates = db.templates ↔
      ∀ es, elements reply = .ok es → Portal.templates.Untouched es db.templates :=
  same_onTable overwriting_templates Db.templates (fun db t => { db with templates := t })
    (fun _ _ => rfl) (fun ex hex => by rw [Template.sync, hex])
    (fun es hes => by rw [Template.sync, hes]) db

theorem same_diskOffering_iff (reply : Option (List DiskOfferingElement)) (db : Db) :
    (run (DiskOffering.sync reply) db).2.diskOfferings = db.diskOfferings ↔
      ∀ es, severalElements reply = .ok es →
        Portal.diskOfferings.Untouched es db.diskOfferings :=
  same_onTable overwriting_diskOfferings Db.diskOfferings
    (fun db t => { db with diskOfferings := t }) (fun _ _ => rfl)
    (fun ex hex => by rw [DiskOffering.sync, hex]) (fun es hes => by rw [DiskOffering.sync, hes]) db

theorem same_serviceOffering_iff (reply : Option (List ServiceOfferingElement)) (db : Db) :
    (run (ServiceOffering.sync reply) db).2.serviceOfferings = db.serviceOfferings ↔
      ∀ es, severalElements reply = .ok es →
        Portal.serviceOfferings.Untouched es db.serviceOfferings :=
  same_onTable overwriting_serviceOfferings Db.serviceOfferings
    (fun db t => { db with serviceOfferings := t }) (fun _ _ => rfl)
    (fun ex hex => by rw [ServiceOffering.sync, hex])
    (fun es hes => by rw [ServiceOffering.sync, hes]) db

/-- The later steps leave the tables of the earlier ones as they are. -/
theorem keeps_diskOffering (reply : Option (List DiskOfferingElement)) (db : Db) :
    (run (DiskOffering.sync reply) db).2.templates = db.templates := by
  unfold DiskOffering.sync
  cases severalElements reply with
  | error e => rfl
  | ok es => rfl

theorem keeps_serviceOffering (reply : Option (List ServiceOfferingElement)) (db : Db) :
    (run (ServiceOffering.sync reply) db).2.templates = db.templates ∧
      (run (ServiceOffering.sync reply) db).2.diskOfferings = db.diskOfferings := by
  unfold ServiceOffering.sync
  cases severalElements reply with
  | error e => exact ⟨rfl, rfl⟩
  | ok es => exact ⟨rfl, rfl⟩

/-! ### The three steps -/

theorem state_sync (lists : Lists) (db : Db) :
    (run (sync lists) db).2 = (run (synchronise lists) db).2 := by
  rw [sync_eq, run_rescue]
  rcases run (synchronise lists) db with ⟨e | u, db'⟩
  · rfl
  · rfl

/-- **A synchronisation, failed or not, leaves the tables as they were exactly if no step
that is reached has anything to do.** -/
theorem sameCatalogue_iff {lists : Lists} {db : Db} :
    SameCatalogue db (run (sync lists) db).2 ↔ NothingToDo lists db := by
  have hfirst := same_template_iff lists.templates db
  obtain ⟨hdisk₁, hservice₁, -⟩ := same_templates lists.templates db
  rw [state_sync, synchronise]
  rcases hrun₁ : run (Template.sync lists.templates) db with ⟨e | u, db₁⟩
  · -- the first step raises: the others are not reached
    rw [hrun₁] at hfirst hdisk₁ hservice₁
    rw [run_bind_error hrun₁]
    have hno := not_returns_of_error hrun₁
    refine ⟨fun h => ⟨hfirst.mp h.templates, fun hret => absurd hret hno, fun hret => ?_⟩,
      fun h => ⟨hfirst.mpr h.templates, hdisk₁, hservice₁⟩⟩
    obtain ⟨u, db', hok, -⟩ := returns_bind_iff.mp hret
    exact absurd ⟨u, db', hok⟩ hno
  · rw [hrun₁] at hfirst hdisk₁ hservice₁
    rw [run_bind_ok hrun₁]
    have hyes : Returns (Template.sync lists.templates) db := ⟨u, db₁, hrun₁⟩
    have hsecond := same_diskOffering_iff lists.diskOfferings db₁
    have htemplates₂ := keeps_diskOffering lists.diskOfferings db₁
    obtain ⟨hservice₂, -⟩ := same_diskOfferings lists.diskOfferings db₁
    rw [hdisk₁] at hsecond
    rcases hrun₂ : run (DiskOffering.sync lists.diskOfferings) db₁ with ⟨e | u', db₂⟩
    · rw [hrun₂] at hsecond htemplates₂ hservice₂
      rw [run_bind_error hrun₂]
      have hno : ¬ Returns (do
          Template.sync lists.templates
          DiskOffering.sync lists.diskOfferings) db := by
        rw [returns_bind_iff]
        rintro ⟨v, db', hok, hret⟩
        obtain rfl := (Prod.mk.inj (hrun₁.symm.trans hok)).2
        exact not_returns_of_error hrun₂ hret
      refine ⟨fun h => ⟨hfirst.mp (htemplates₂.symm.trans h.templates),
          fun _ => hsecond.mp h.diskOfferings, fun hret => absurd hret hno⟩,
        fun h => ⟨htemplates₂.trans (hfirst.mpr h.templates), hsecond.mpr (h.diskOfferings hyes),
          hservice₂.trans hservice₁⟩⟩
    · rw [hrun₂] at hsecond htemplates₂ hservice₂
      rw [run_bind_ok hrun₂]
      have hboth : Returns (do
          Template.sync lists.templates
          DiskOffering.sync lists.diskOfferings) db := by
        rw [returns_bind_iff]
        exact ⟨u, db₁, hrun₁, u', db₂, hrun₂⟩
      have hthird := same_serviceOffering_iff lists.serviceOfferings db₂
      obtain ⟨htemplates₃, hdisk₃⟩ := keeps_serviceOffering lists.serviceOfferings db₂
      rw [hservice₂, hservice₁] at hthird
      refine ⟨fun h => ⟨hfirst.mp ?_, fun _ => hsecond.mp ?_, fun _ => hthird.mp ?_⟩,
        fun h => ⟨?_, ?_, ?_⟩⟩
      · exact htemplates₂.symm.trans (htemplates₃.symm.trans h.templates)
      · exact hdisk₃.symm.trans h.diskOfferings
      · exact h.serviceOfferings
      · exact htemplates₃.trans (htemplates₂.trans (hfirst.mpr h.templates))
      · exact hdisk₃.trans (hsecond.mpr (h.diskOfferings hyes))
      · exact hthird.mpr (h.serviceOfferings hboth)

/-- The cloud lists a template, and no disk offerings. -/
def templatesAlone : Lists where
  templates := some [⟨some "tpl-1", some "centos", none, none, some "2013"⟩]
  diskOfferings := none
  serviceOfferings := none

/-- **The synchronisation fails, and there is a new template.** -/
theorem template_of_failed_sync :
    Fails templatesAlone emptyDb ∧
      ¬ SameCatalogue emptyDb (run (sync templatesAlone) emptyDb).2 := by
  constructor
  · exact not_returns_of_error (t := (run (synchronise templatesAlone) emptyDb).2)
      (e := .noMethodError) rfl
  · intro h
    have hrows := congrArg (fun t => t.rows.map Template.templateId) h.templates
    exact absurd hrows (by decide)

end BkPlatform.Portal
