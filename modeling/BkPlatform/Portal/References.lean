import BkPlatform.Lib.Run
import BkPlatform.Portal.Binding
import BkPlatform.Portal.Polls
import BkPlatform.Portal.Sync

/-!
# What an instance refers to

An instance names a service offering, perhaps a disk offering, and a template.  Its
validations look for the first two at every update; `deploy` reads the first and the
last without looking whether they are there.  `sync` deletes rows of all three tables
whoever refers to them, and `create` does not look for the template: that validation is
commented out.

## Main definitions

* `Intact` — every instance passes its validations, and a pending one can be deployed.
* `Spares` — the lists of a synchronisation have everything that is referred to.
* `Safe` — the condition on a step.

## Main results

* `Intact.updates` — no update of an operation on an intact instance is refused.
* `intact_of_safe` — **the instances stay intact in every run whose steps are safe.**
* `broken_by_sync` — one list without an offering in use breaks an instance.
-/

namespace BkPlatform.Portal

open Eff RubyString

/-! ### The property -/

/-- Every instance passes its own validations, and `deploy` on a pending one finds what it
reads. -/
def Intact (db : Db) : Prop :=
  ∀ row ∈ db.instances.rows,
    row.valid db.catalogue (db.otherNames row.id) = true ∧
      (row.is "pending" = true → ∃ args, deployArgs db.catalogue row = .ok args)

/-- What a row refers to is not missing from the list its table mirrors. -/
def InList {ρ : Type} (rows : List ρ) (key : ρ → ℕ) (remoteId : ρ → Option String)
    (ids : List (Option String)) (id : Option ℕ) : Prop :=
  ∀ r ∈ rows, some (key r) = id → notIn ids (remoteId r) = false

instance {ρ : Type} (rows : List ρ) (key : ρ → ℕ) (remoteId : ρ → Option String)
    (ids : List (Option String)) (id : Option ℕ) : Decidable (InList rows key remoteId ids id) :=
  inferInstanceAs (Decidable (∀ r ∈ rows, some (key r) = id → notIn ids (remoteId r) = false))

/-- The lists have everything that is referred to: the templates of the pending
instances, and the offerings of all.  A table that is not reached, or whose list cannot be
read, is left as it is. -/
structure Spares (db : Db) (lists : Lists) : Prop where
  templates : ∀ es, elements lists.templates = .ok es →
    ∀ row ∈ db.instances.rows, row.is "pending" = true →
      InList db.templates.rows Template.id Template.templateId (es.map TemplateElement.id)
        row.templateId
  diskOfferings : (run (Template.sync lists.templates) db).1.isOk = true →
    ∀ es, severalElements lists.diskOfferings = .ok es → ∀ row ∈ db.instances.rows,
      InList db.diskOfferings.rows DiskOffering.id DiskOffering.diskOfferingId
        (es.map DiskOfferingElement.id) row.diskOfferingId
  serviceOfferings : (run (do
      Template.sync lists.templates
      DiskOffering.sync lists.diskOfferings) db).1.isOk = true →
    ∀ es, severalElements lists.serviceOfferings = .ok es → ∀ row ∈ db.instances.rows,
      InList db.serviceOfferings.rows ServiceOffering.id ServiceOffering.serviceOfferingId
        (es.map ServiceOfferingElement.id) row.serviceOfferingId

/-- The condition on a step: a new instance is saved with a template that exists, a
synchronisation spares what is referred to, and no answer makes an instance pending
whose template is gone. -/
def Safe (db : Db) : DbStep → Prop
  | .create user p now =>
    ∀ u username displayname, user = some u → u.username = some username →
      p.displayname = some displayname →
      (p.row u username displayname now 0).valid db.catalogue
          (db.instances.rows.map Instance.name) = true →
        (db.catalogue.template p.templateId).isSome = true
  | .sync lists => Spares db lists
  | .operate id c =>
    ∀ row ∈ db.instances.rows, row.id = id →
      (db.catalogue.template row.templateId).isSome = true ∨
        ∀ reply ∈ c.replies, reply.pending = false

/-! ### Lookups -/

theorem isSome_template {cat : Catalogue} {id : Option ℕ} :
    (cat.template id).isSome = true ↔ ∃ t ∈ cat.templates, some t.id = id := by
  simp [Catalogue.template]

theorem isSome_diskOffering {cat : Catalogue} {id : Option ℕ} :
    (cat.diskOffering id).isSome = true ↔ ∃ d ∈ cat.diskOfferings, some d.id = id := by
  simp [Catalogue.diskOffering]

theorem isSome_serviceOffering {cat : Catalogue} {id : Option ℕ} :
    (cat.serviceOffering id).isSome = true ↔ ∃ s ∈ cat.serviceOfferings, some s.id = id := by
  simp [Catalogue.serviceOffering]

/-- `deploy` reads a service offering and a template. -/
theorem deployArgs_ok {cat : Catalogue} {i : Instance} :
    (∃ args, deployArgs cat i = .ok args) ↔
      (cat.serviceOffering i.serviceOfferingId).isSome = true ∧
        (cat.template i.templateId).isSome = true := by
  unfold deployArgs
  cases cat.serviceOffering i.serviceOfferingId with
  | none => simp
  | some s =>
    cases cat.template i.templateId with
    | none => simp
    | some t => simp

instance (db : Db) : Decidable (Intact db) :=
  decidable_of_iff (∀ row ∈ db.instances.rows,
    row.valid db.catalogue (db.otherNames row.id) = true ∧
      (row.is "pending" = true →
        (db.catalogue.serviceOffering row.serviceOfferingId).isSome = true ∧
          (db.catalogue.template row.templateId).isSome = true))
    (by simp only [Intact, deployArgs_ok])

/-- The columns the validations and `deploy` look at. -/
structure Alike (i j : Instance) : Prop where
  name : j.name = i.name
  displayname : j.displayname = i.displayname
  serviceOfferingId : j.serviceOfferingId = i.serviceOfferingId
  diskOfferingId : j.diskOfferingId = i.diskOfferingId
  templateId : j.templateId = i.templateId

theorem Alike.valid {i j : Instance} (h : Alike i j) (cat : Catalogue) (names : List String) :
    j.valid cat names = i.valid cat names := by
  simp only [Instance.valid, h.name, h.displayname, h.serviceOfferingId, h.diskOfferingId,
    h.templateId]

/-- The validations after a change of the tables: the offerings are still there and the
name is still its own. -/
theorem valid_of_kept {cat cat' : Catalogue} {names names' : List String} {i : Instance}
    (h : i.valid cat names = true)
    (hservice : (cat.serviceOffering i.serviceOfferingId).isSome = true →
      (cat'.serviceOffering i.serviceOfferingId).isSome = true)
    (hdisk : (cat.diskOffering i.diskOfferingId).isSome = true →
      (cat'.diskOffering i.diskOfferingId).isSome = true)
    (hname : i.name ∉ names → i.name ∉ names') : i.valid cat' names' = true := by
  simp only [Instance.valid, Bool.and_eq_true, Bool.not_eq_true', Bool.or_eq_true,
    List.contains_eq_mem, decide_eq_false_iff_not] at h ⊢
  obtain ⟨⟨⟨⟨⟨⟨⟨hblank, hown⟩, hdisplay⟩, hformat⟩, hs⟩, ht⟩, hoffering⟩, hd⟩ := h
  exact ⟨⟨⟨⟨⟨⟨⟨hblank, hname hown⟩, hdisplay⟩, hformat⟩, hs⟩, ht⟩, hservice hoffering⟩,
    hd.imp id hdisk⟩

theorem serviceOffering_of_valid {cat : Catalogue} {names : List String} {i : Instance}
    (h : i.valid cat names = true) : (cat.serviceOffering i.serviceOfferingId).isSome = true := by
  simp only [Instance.valid, Bool.and_eq_true] at h
  exact h.1.2

theorem name_of_valid {cat : Catalogue} {names : List String} {i : Instance}
    (h : i.valid cat names = true) : i.name ∉ names := by
  simp only [Instance.valid, Bool.and_eq_true, Bool.not_eq_true', List.contains_eq_mem,
    decide_eq_false_iff_not] at h
  exact h.1.1.1.1.1.1.2

/-! ### The synchronisation -/

/-- A change of the tables that keeps what the instances refer to. -/
theorem Intact.of_tables {db db' : Db} (h : Intact db) (hsame : db'.instances = db.instances)
    (htemplate : ∀ row ∈ db.instances.rows, row.is "pending" = true →
      (db.catalogue.template row.templateId).isSome = true →
      (db'.catalogue.template row.templateId).isSome = true)
    (hdisk : ∀ row ∈ db.instances.rows,
      (db.catalogue.diskOffering row.diskOfferingId).isSome = true →
      (db'.catalogue.diskOffering row.diskOfferingId).isSome = true)
    (hservice : ∀ row ∈ db.instances.rows,
      (db.catalogue.serviceOffering row.serviceOfferingId).isSome = true →
      (db'.catalogue.serviceOffering row.serviceOfferingId).isSome = true) : Intact db' := by
  intro row hrow
  rw [hsame] at hrow
  obtain ⟨hvalid, hdeploy⟩ := h row hrow
  have hnames : db'.otherNames row.id = db.otherNames row.id := by
    rw [Db.otherNames, hsame, Db.otherNames]
  constructor
  · rw [hnames]
    exact valid_of_kept hvalid (hservice row hrow) (hdisk row hrow) fun hname => hname
  · intro hpending
    obtain ⟨hoffering, ht⟩ := deployArgs_ok.mp (hdeploy hpending)
    exact deployArgs_ok.mpr ⟨hservice row hrow hoffering, htemplate row hrow hpending ht⟩

/-- What a synchronisation of a table keeps for a row that refers to it. -/
theorem mem_of_inList {ρ ε : Type} {key : ρ → ℕ} {m : Mirror ρ ε Raised key} {t : Table ρ key}
    {es : List ε} {id : Option ℕ} (hlist : InList t.rows key m.remoteId (es.map m.id) id)
    (h : ∃ r ∈ t.rows, some (key r) = id) :
    ∃ r ∈ (run (m.sync es) t).2.rows, some (key r) = id := by
  obtain ⟨r, hr, hid⟩ := h
  obtain ⟨r', hr', hkey⟩ := m.hasKey_sync hr (hlist r hr hid)
  exact ⟨r', hr', by rw [hkey, hid]⟩

/-- The first table. -/
theorem intact_templates {db : Db} (h : Intact db) {reply : Option (List TemplateElement)}
    (hspares : ∀ es, elements reply = .ok es → ∀ row ∈ db.instances.rows,
      row.is "pending" = true → InList db.templates.rows Template.id Template.templateId
        (es.map TemplateElement.id) row.templateId) :
    Intact (run (Template.sync reply) db).2 := by
  unfold Template.sync
  cases hes : elements reply with
  | error e => exact h
  | ok es =>
    refine h.of_tables rfl (fun row hrow hpending ht => ?_) (fun _ _ hd => hd) fun _ _ hs => hs
    rw [isSome_template] at ht ⊢
    exact mem_of_inList (m := templates) (hspares es hes row hrow hpending) ht

/-- The second table. -/
theorem intact_diskOfferings {db : Db} (h : Intact db)
    {reply : Option (List DiskOfferingElement)}
    (hspares : ∀ es, severalElements reply = .ok es → ∀ row ∈ db.instances.rows,
      InList db.diskOfferings.rows DiskOffering.id DiskOffering.diskOfferingId
        (es.map DiskOfferingElement.id) row.diskOfferingId) :
    Intact (run (DiskOffering.sync reply) db).2 := by
  unfold DiskOffering.sync
  cases hes : severalElements reply with
  | error e => exact h
  | ok es =>
    refine h.of_tables rfl (fun _ _ _ ht => ht) (fun row hrow hd => ?_) fun _ _ hs => hs
    rw [isSome_diskOffering] at hd ⊢
    exact mem_of_inList (m := diskOfferings) (hspares es hes row hrow) hd

/-- The third table. -/
theorem intact_serviceOfferings {db : Db} (h : Intact db)
    {reply : Option (List ServiceOfferingElement)}
    (hspares : ∀ es, severalElements reply = .ok es → ∀ row ∈ db.instances.rows,
      InList db.serviceOfferings.rows ServiceOffering.id ServiceOffering.serviceOfferingId
        (es.map ServiceOfferingElement.id) row.serviceOfferingId) :
    Intact (run (ServiceOffering.sync reply) db).2 := by
  unfold ServiceOffering.sync
  cases hes : severalElements reply with
  | error e => exact h
  | ok es =>
    refine h.of_tables rfl (fun _ _ _ ht => ht) (fun _ _ hd => hd) fun row hrow hs => ?_
    rw [isSome_serviceOffering] at hs ⊢
    exact mem_of_inList (m := serviceOfferings) (hspares es hes row hrow) hs

/-- The first two tables leave the third, and the instances, as they are. -/
theorem same_templates (reply : Option (List TemplateElement)) (db : Db) :
    (run (Template.sync reply) db).2.diskOfferings = db.diskOfferings ∧
      (run (Template.sync reply) db).2.serviceOfferings = db.serviceOfferings ∧
      (run (Template.sync reply) db).2.instances = db.instances := by
  unfold Template.sync
  cases elements reply with
  | error e => exact ⟨rfl, rfl, rfl⟩
  | ok es => exact ⟨rfl, rfl, rfl⟩

theorem same_diskOfferings (reply : Option (List DiskOfferingElement)) (db : Db) :
    (run (DiskOffering.sync reply) db).2.serviceOfferings = db.serviceOfferings ∧
      (run (DiskOffering.sync reply) db).2.instances = db.instances := by
  unfold DiskOffering.sync
  cases severalElements reply with
  | error e => exact ⟨rfl, rfl⟩
  | ok es => exact ⟨rfl, rfl⟩

/-- **A synchronisation whose lists spare what is referred to.** -/
theorem Intact.sync {db : Db} (h : Intact db) {lists : Lists} (hspares : Spares db lists) :
    Intact (run (sync lists) db).2 := by
  have hfirst := intact_templates h hspares.templates
  obtain ⟨hdisk₁, hservice₁, hrows₁⟩ := same_templates lists.templates db
  have hreach₂ := hspares.diskOfferings
  have hreach₃ := hspares.serviceOfferings
  unfold Portal.sync
  rw [run_rescue, run_bind]
  rw [run_bind] at hreach₃
  rcases hrun₁ : run (Template.sync lists.templates) db with ⟨e | u, db₁⟩
  · rw [hrun₁] at hfirst
    exact hfirst
  rw [hrun₁] at hfirst hdisk₁ hservice₁ hrows₁ hreach₂ hreach₃
  have hsecond : Intact (run (DiskOffering.sync lists.diskOfferings) db₁).2 := by
    refine intact_diskOfferings hfirst fun es hes row hrow => ?_
    rw [hrows₁] at hrow
    rw [hdisk₁]
    exact hreach₂ rfl es hes row hrow
  obtain ⟨hservice₂, hrows₂⟩ := same_diskOfferings lists.diskOfferings db₁
  simp only [run_bind] at hreach₃ ⊢
  rcases hrun₂ : run (DiskOffering.sync lists.diskOfferings) db₁ with ⟨e | u, db₂⟩
  · rw [hrun₂] at hsecond
    exact hsecond
  rw [hrun₂] at hsecond hservice₂ hrows₂ hreach₃
  have hthird : Intact (run (ServiceOffering.sync lists.serviceOfferings) db₂).2 := by
    refine intact_serviceOfferings hsecond fun es hes row hrow => ?_
    rw [hrows₂, hrows₁] at hrow
    rw [hservice₂, hservice₁]
    exact hreach₃ rfl es hes row hrow
  simp only
  rcases hrun₃ : run (ServiceOffering.sync lists.serviceOfferings) db₂ with ⟨e | u, db₃⟩
  · rw [hrun₃] at hthird
    exact hthird
  · rw [hrun₃] at hthird
    exact hthird

/-! ### A new instance -/

/-- A row that has just been saved, with a template that exists. -/
theorem Intact.insert {db : Db} (h : Intact db) {make : ℕ → Instance}
    (hmake : ∀ n, (make n).id = n) (halike : ∀ n, Alike (make 0) (make n))
    (hvalid : (make 0).valid db.catalogue (db.instances.rows.map Instance.name) = true)
    (htemplate : (db.catalogue.template (make 0).templateId).isSome = true) :
    Intact { db with instances := db.instances.insert make hmake } := by
  have hname : (make 0).name ∉ db.instances.rows.map Instance.name := name_of_valid hvalid
  intro row hrow
  rcases List.mem_append.mp hrow with hold | hnew
  · -- the new name is not that of an older row
    obtain ⟨hkept, hdeploy⟩ := h row hold
    refine ⟨valid_of_kept hkept id id fun hown hmem => ?_, hdeploy⟩
    obtain ⟨other, hother, hsame⟩ := List.mem_map.mp hmem
    obtain ⟨hother, hne⟩ := List.mem_filter.mp hother
    rcases List.mem_append.mp hother with hothers | hlast
    · exact hown (List.mem_map.mpr ⟨other, List.mem_filter.mpr ⟨hothers, hne⟩, hsame⟩)
    · rw [List.mem_singleton.mp hlast, (halike _).name] at hsame
      exact hname (List.mem_map.mpr ⟨row, hold, hsame.symm⟩)
  · obtain rfl := List.mem_singleton.mp hnew
    have hlike := halike db.instances.nextId
    have hsaved := (hlike.valid db.catalogue (db.instances.rows.map Instance.name)).trans hvalid
    constructor
    · refine valid_of_kept hsaved id id fun hown hmem => ?_
      obtain ⟨other, hother, hsame⟩ := List.mem_map.mp hmem
      obtain ⟨hother, hne⟩ := List.mem_filter.mp hother
      rcases List.mem_append.mp hother with hothers | hlast
      · exact hown (List.mem_map.mpr ⟨other, hothers, hsame⟩)
      · rw [List.mem_singleton.mp hlast] at hne
        exact absurd rfl (bne_iff_ne.mp hne)
    · intro _
      refine deployArgs_ok.mpr ⟨serviceOffering_of_valid hsaved, ?_⟩
      rw [hlike.templateId]
      exact htemplate

/-- **A creation that chooses an existing template.** -/
theorem Intact.create {db : Db} (h : Intact db) {user : Option CurrentUser} {p : NewInstance}
    {now : String} (hsafe : Safe db (.create user p now)) :
    Intact (run (create user p now) db).2 := by
  unfold Portal.create
  cases user with
  | none => exact h
  | some u =>
    cases husername : u.username with
    | none => simpa [husername] using h
    | some username =>
      cases hdisplay : p.displayname with
      | none => simpa [husername, hdisplay] using h
      | some displayname =>
        simp only [husername, run_bind, run_get]
        by_cases hvalid : (p.row u username displayname now 0).valid db.catalogue
          (db.instances.rows.map Instance.name) = true
        · rw [if_pos hvalid]
          exact h.insert (fun _ => rfl) (fun _ => ⟨rfl, rfl, rfl, rfl, rfl⟩) hvalid
            (hsafe u username displayname rfl husername hdisplay hvalid)
        · rw [if_neg hvalid]
          exact h

/-! ### The operations -/

/-- What an operation keeps of the row it works on: the columns the validations look at,
and that it is pending only if its template is there. -/
structure Refers (cat : Catalogue) (row : Instance) (w : World) : Prop where
  alike : Alike row w.row
  pending : w.row.is "pending" = true → (cat.template row.templateId).isSome = true

theorem Refers.does {cat : Catalogue} {row : Instance} {C : May} {w w' : World}
    (h : Refers cat row w)
    (hw : Answered (fun reply => reply.pending = false ∨
      (cat.template row.templateId).isSome = true) w)
    (hdoes : Does C w w') : Refers cat row w' := by
  obtain ⟨⟨hname, hdisplay, hservice, hdisk, htemplate⟩, hpending⟩ := h
  -- a state that is written may be pending only if an answer has it so
  have hwritten : ∀ {req reply vm s}, Event.call req reply ∈ w.trace → vm ∈ reply.machines →
      vm.state = some s → downcase s = "pending" →
      (cat.template row.templateId).isSome = true := by
    intro req reply vm s hcall hvm hs hstate
    rcases hw.trace req reply hcall with hreply | hthere
    · exact absurd hstate (not_pending hreply hvm hs)
    · exact hthere
  cases hdoes with
  | calls hreq hallowed => exact ⟨⟨hname, hdisplay, hservice, hdisk, htemplate⟩, hpending⟩
  | scripts ssh => exact ⟨⟨hname, hdisplay, hservice, hdisk, htemplate⟩, hpending⟩
  | enqueues hjob => exact ⟨⟨hname, hdisplay, hservice, hdisk, htemplate⟩, hpending⟩
  | addresses hostname port => exact ⟨⟨hname, hdisplay, hservice, hdisk, htemplate⟩, hpending⟩
  | lists hcall hs =>
    refine ⟨⟨hname, hdisplay, hservice, hdisk, htemplate⟩, fun hstate => ?_⟩
    exact hwritten hcall (List.mem_singleton_self _) hs (Instance.is_iff.mp hstate)
  | creates hjob hopen hcall hrow =>
    obtain ⟨s, hs, rfl⟩ := Option.map_eq_some_iff.mp hrow
    refine ⟨⟨hname, hdisplay, hservice, hdisk, htemplate⟩, fun hstate => ?_⟩
    exact hwritten hcall (List.mem_singleton_self _) hs (Instance.is_iff.mp hstate)
  | marks hs =>
    refine ⟨⟨hname, hdisplay, hservice, hdisk, htemplate⟩, fun hstate => ?_⟩
    exact absurd (Instance.is_iff.mp hstate) (mark_not_pending hs)
  | stores hcmd hs =>
    refine ⟨⟨hname, hdisplay, hservice, hdisk, htemplate⟩, fun hstate => ?_⟩
    exact absurd (Instance.is_iff.mp hstate) (literal_not_pending (Or.inr hs))
  | approves hargs hpending' hcall =>
    have happroving : downcase "approving" ≠ "pending" := literal_not_pending (Or.inl (by decide))
    refine ⟨⟨hname, hdisplay, hservice, hdisk, htemplate⟩, fun hstate => ?_⟩
    exact absurd (Instance.is_iff.mp hstate) happroving

/-- Rows that are rewritten, but not in the columns looked at. -/
theorem Intact.modify {db : Db} (h : Intact db) {f : Instance → Instance}
    (hf : ∀ r, (f r).id = r.id) (halike : ∀ r ∈ db.instances.rows, Alike r (f r))
    (hpending : ∀ r ∈ db.instances.rows, (f r).is "pending" = true →
      (db.catalogue.template r.templateId).isSome = true) (queue : List Job) :
    Intact { db with instances := db.instances.modify f hf, queue := queue } := by
  have hnames : ∀ k, ((db.instances.rows.map f).filter fun r => r.id != k).map Instance.name =
      db.otherNames k := by
    intro k
    have hkeep : ((fun r : Instance => r.id != k) ∘ f) = fun r => r.id != k := by
      funext r
      rw [Function.comp_apply, hf]
    rw [List.filter_map, hkeep, List.map_map, Db.otherNames]
    exact List.map_congr_left fun r hr => (halike r (List.mem_filter.mp hr).1).name
  intro row hrow
  obtain ⟨r, hr, rfl⟩ := List.mem_map.mp hrow
  obtain ⟨hvalid, -⟩ := h r hr
  have hlike := halike r hr
  constructor
  · rw [hlike.valid, hf]
    refine valid_of_kept hvalid id id fun hown hmem => hown ?_
    rw [← hnames r.id]
    exact hmem
  · intro hstate
    refine deployArgs_ok.mpr ⟨?_, ?_⟩
    · rw [hlike.serviceOfferingId]
      exact serviceOffering_of_valid hvalid
    · rw [hlike.templateId]
      exact hpending r hr hstate

/-- What an operation leaves of its row. -/
theorem refers_operate {db : Db} (h : Intact db) {row : Instance} (hrow : row ∈ db.instances.rows)
    {c : Call} (hsafe : (db.catalogue.template row.templateId).isSome = true ∨
      ∀ reply ∈ c.replies, reply.pending = false) :
    Refers db.catalogue row (operate (db.world row) c) := by
  have hreplies : ∀ reply ∈ c.replies, reply.pending = false ∨
      (db.catalogue.template row.templateId).isSome = true := by
    intro reply hreply
    rcases hsafe with hthere | hnone
    · exact Or.inr hthere
    · exact Or.inl (hnone reply hreply)
  refine (inv_answered (I := Refers db.catalogue row)
    (A := fun reply => reply.pending = false ∨
      (db.catalogue.template row.templateId).isSome = true)
    (Or.inl rfl) (fun _ _ _ hans hdoes hw => hw.does hans hdoes)
    (fun _ _ _ hw => ⟨hw.alike, hw.pending⟩) ?_ ?_ hreplies).2
  · intro req reply hcall
    exact absurd hcall List.not_mem_nil
  · refine ⟨⟨rfl, rfl, rfl, rfl, rfl⟩, fun hpending => ?_⟩
    exact (deployArgs_ok.mp ((h row hrow).2 hpending)).2

/-- **An operation that is not told of a pending machine whose template is gone.** -/
theorem Intact.operate {db : Db} (h : Intact db) {id : ℕ} {c : Call}
    (hsafe : Safe db (.operate id c)) : Intact (db.operate id c) := by
  unfold Db.operate
  cases hfind : db.instances.rows.find? fun r => r.id == id with
  | none => exact h
  | some row =>
    have hrow : row ∈ db.instances.rows := List.mem_of_find?_eq_some hfind
    have hid : row.id = id := by simpa using List.find?_some hfind
    have hrefers := refers_operate h hrow (hsafe row hrow hid)
    -- the row with this id is the one the operation has worked on
    have hsame : ∀ r ∈ db.instances.rows, r.id = id → r = row := fun r hr heq =>
      db.instances.eq_of_key hr hrow (heq.trans hid.symm)
    refine h.modify _ (fun r hr => ?_) (fun r hr hstate => ?_) _
    · by_cases heq : r.id = id
      · rw [if_pos heq, hsame r hr heq]
        obtain ⟨hname, hdisplay, hservice, hdisk, htemplate⟩ := hrefers.alike
        exact ⟨hname, hdisplay, hservice, hdisk, htemplate⟩
      · rw [if_neg heq]
        exact ⟨rfl, rfl, rfl, rfl, rfl⟩
    · by_cases heq : r.id = id
      · rw [if_pos heq] at hstate
        rw [hsame r hr heq]
        exact hrefers.pending hstate
      · rw [if_neg heq] at hstate
        exact (deployArgs_ok.mp ((h r hr).2 hstate)).2

/-- **In an intact database no update of an operation is refused**: at every point of it
the row passes its validations, so that `update_attributes!` goes through. -/
theorem Intact.updates {db : Db} (h : Intact db) {row : Instance}
    (hrow : row ∈ db.instances.rows) {op : Op} {replies : List Reply} {ssh : List SshReply}
    {w : World} (hafter : After op.may { db.world row with replies := replies, ssh := ssh } w)
    {f : Instance → Option Instance} {row' : Instance} (hf : f w.row = some row')
    (hvalid : row'.valid w.catalogue w.otherNames = w.row.valid w.catalogue w.otherNames) :
    run (updateAttributes f) w = (.ok (), { w with row := row' }) := by
  have hholds : w.holds = true :=
    inv_of_steps (I := fun w => w.holds = true)
      (fun _ _ hdoes hholds => hdoes.valid.trans hholds) hafter (h row hrow).1
  rw [run_updateAttributes hf hvalid, if_pos hholds]

/-! ### Every run -/

/-- **The instances stay intact in every run whose steps are safe.** -/
theorem intact_of_safe {db : Db} (hdb : Intact db) {steps : List DbStep}
    (hsafe : Run.Along (Run.total dbStep) Safe db steps) : Intact (steps.foldl dbStep db) := by
  refine Run.foldl_inv_along (fun db a h ha => ?_) hdb hsafe
  cases a with
  | create user p now => exact h.create ha
  | sync lists => exact h.sync ha
  | operate id c => exact h.operate ha

theorem intact_emptyDb : Intact emptyDb := fun _ hrow => absurd hrow List.not_mem_nil

/-- A service offering of the cloud. -/
def offering (id : String) : ServiceOfferingElement :=
  { id := some id, cpunumber := some "1", cpuspeed := some "1000", memory := some "512",
    offerha := some "false", created := some "2013-08-01T00:00:00+0700" }

/-- Two templates, two disk offerings, and the given service offerings. -/
def listsWith (offerings : List ServiceOfferingElement) : Lists where
  templates := some [{ id := some "tpl-1", created := some "2013-08-01T00:00:00+0700" },
    { id := some "tpl-2", created := some "2013-08-01T00:00:00+0700" }]
  diskOfferings := some [{ id := some "disk-1", created := some "2013-08-01T00:00:00+0700" },
    { id := some "disk-2", created := some "2013-08-01T00:00:00+0700" }]
  serviceOfferings := some offerings

/-- The first synchronisation. -/
def firstSync : DbStep := .sync (listsWith [offering "so-1", offering "so-2"])

/-- A desktop of user 7 with the given template and the first service offering. -/
def newDesktop (template : ℕ) : DbStep :=
  .create (some ⟨7, some "an"⟩) ⟨some "desk", some template, none, some 1⟩
    "2013-08-10T00:00:00+0700"

/-- **A synchronisation breaks an instance whose offering has gone**, and a pending one
whose template never was cannot be deployed. -/
theorem broken_by_sync :
    ¬ Intact ([firstSync, newDesktop 1,
      .sync (listsWith [offering "so-2", offering "so-3"])].foldl dbStep emptyDb) ∧
    ¬ Intact ([firstSync, newDesktop 9].foldl dbStep emptyDb) := by
  decide

/-- The same instance, while its offering stays in the list. -/
theorem intact_of_kept_offering :
    Intact ([firstSync, newDesktop 1,
      .sync (listsWith [offering "so-1", offering "so-3"]),
      .operate 1 ⟨.deploy, [.job .deploy (some "21")], []⟩].foldl dbStep emptyDb) := by
  refine intact_of_safe intact_emptyDb ?_
  simp only [Run.along_total_cons]
  refine ⟨?_, ?_, ?_, ?_, trivial⟩
  · constructor
    · exact fun _ _ _ hrow => absurd hrow List.not_mem_nil
    · exact fun _ _ _ _ hrow => absurd hrow List.not_mem_nil
    · exact fun _ _ _ _ hrow => absurd hrow List.not_mem_nil
  · intro _ _ _ _ _ _ _
    decide
  · constructor
    · intro es hes
      obtain rfl := Except.ok.inj hes
      decide
    · intro _ es hes
      obtain rfl := Except.ok.inj hes
      decide
    · intro _ es hes
      obtain rfl := Except.ok.inj hes
      decide
  · show ∀ row ∈ _, _
    decide

end BkPlatform.Portal
