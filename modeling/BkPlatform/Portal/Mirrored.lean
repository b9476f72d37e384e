import BkPlatform.Portal.Sync

/-!
# What a synchronisation comes to

The three lists are read by the same code, but for one line: `Template.sync` wraps a
single element, which `Hash.from_xml` leaves bare, and the other two take its pairs for
elements.  None of them reads a list without elements, whose key is absent, and so an
empty list is never mirrored; the `NOT IN` of an empty list is never asked.

What a list mirrors then depends on the table before: `NOT IN` is not known of a null, so
a row without a cloud id stays for ever, and of two rows with one id both stay.

## Main definitions

* `ListReply` — the reply to one of the lists, and its synchronisation.
* `ListReply.Mirrored` — the table has the ids of the list, each once.
* `ListReply.Mirrorable` — the condition on the reply and the table before.

## Main results

* `mirrored_iff` — **exactly when a synchronisation mirrors its list.**
-/

namespace BkPlatform.Portal

open Eff RubyString

/-! ### The replies -/

/-- The reply to a list of the cloud, with its elements. -/
inductive ListReply
  | template (es : List TemplateElement)
  | diskOffering (es : List DiskOfferingElement)
  | serviceOffering (es : List ServiceOfferingElement)
  deriving DecidableEq, Repr

/-- The cloud ids of the elements. -/
def ListReply.ids : ListReply → List (Option String)
  | .template es => es.map TemplateElement.id
  | .diskOffering es => es.map DiskOfferingElement.id
  | .serviceOffering es => es.map ServiceOfferingElement.id

/-- The elements are distinct, and each has an id. -/
structure ListReply.WellFormed (r : ListReply) : Prop where
  some : ∀ i ∈ r.ids, i.isSome = true
  distinct : r.ids.Nodup

/-- The synchronisation that asks for the list. -/
def ListReply.sync : ListReply → Eff Raised Db Unit
  | .template es => Template.sync (some es)
  | .diskOffering es => DiskOffering.sync (some es)
  | .serviceOffering es => ServiceOffering.sync (some es)

/-- The cloud ids of the table the list is mirrored in. -/
def ListReply.local (db : Db) : ListReply → List (Option String)
  | .template _ => templates.ids db.templates
  | .diskOffering _ => diskOfferings.ids db.diskOfferings
  | .serviceOffering _ => serviceOfferings.ids db.serviceOfferings

/-- **The synchronisation returns, and the table has the ids of the list, each once.** -/
def ListReply.Mirrored (r : ListReply) (db : Db) : Prop :=
  ∃ db', run r.sync db = (.ok (), db') ∧
    (∀ i, i ∈ r.local db' ↔ i ∈ r.ids) ∧ (r.local db').Nodup

/-! ### The condition -/

/-- The elements can be read: there is one, or for the offerings two. -/
def ListReply.readable : ListReply → Bool
  | .template es => 1 ≤ es.length
  | .diskOffering es => 2 ≤ es.length
  | .serviceOffering es => 2 ≤ es.length

/-- Each element can be written: a new one has a date, and a service offering has the flag
`offerha`. -/
def ListReply.writable (db : Db) (r : ListReply) : Bool :=
  match r with
  | .template es => es.all fun e => (r.local db).contains e.id || e.created.isSome
  | .diskOffering es => es.all fun e => (r.local db).contains e.id || e.created.isSome
  | .serviceOffering es =>
    es.all fun e => e.offerha.isSome && ((r.local db).contains e.id || e.created.isSome)

/-- The elements can be read and written, no row of the table is without a cloud id, and
no two rows share one of the list. -/
structure ListReply.Mirrorable (r : ListReply) (db : Db) : Prop where
  readable : r.readable = true
  writable : r.writable db = true
  noNull : none ∉ r.local db
  noTwins : ∀ i ∈ r.ids, (r.local db).count i ≤ 1

/-! ### The three mirrors -/

/-- A template that is created. -/
theorem create_templates {e : TemplateElement}
    {make : { make : ℕ → Template // ∀ n, (make n).id = n }} (h : templates.create e = .ok make) :
    ∃ created, e.created = some created ∧
      ∀ n, make.1 n = ⟨n, e.id, e.name, e.ostypename, e.details, some created⟩ := by
  cases hdate : e.created with
  | none => simp [templates, dateOf, hdate, bind, Except.bind] at h
  | some created =>
    simp only [templates, dateOf, hdate, bind, Except.bind, pure, Except.pure] at h
    obtain rfl := Except.ok.inj h
    exact ⟨created, rfl, fun _ => rfl⟩

/-- A disk offering that is created. -/
theorem create_diskOfferings {e : DiskOfferingElement}
    {make : { make : ℕ → DiskOffering // ∀ n, (make n).id = n }}
    (h : diskOfferings.create e = .ok make) :
    ∃ created, e.created = some created ∧
      ∀ n, make.1 n = ⟨n, e.id, e.disksize, e.storagetype, some created⟩ := by
  cases hdate : e.created with
  | none => simp [diskOfferings, dateOf, hdate, bind, Except.bind] at h
  | some created =>
    simp only [diskOfferings, dateOf, hdate, bind, Except.bind, pure, Except.pure] at h
    obtain rfl := Except.ok.inj h
    exact ⟨created, rfl, fun _ => rfl⟩

/-- A service offering that is updated. -/
theorem update_serviceOfferings {e : ServiceOfferingElement}
    {f : { f : ServiceOffering → ServiceOffering // ∀ row, (f row).id = row.id }}
    (h : serviceOfferings.update e = .ok f) :
    ∃ offerha, e.offerha = some offerha ∧
      ∀ row, f.1 row =
        { row with cpunumber := some (numberOf e.cpunumber), cpuspeed := some (numberOf e.cpuspeed),
                   memory := some (numberOf e.memory), offerha := some (toBool offerha) } := by
  cases hflag : e.offerha with
  | none => simp [serviceOfferings, flagOf, hflag, bind, Except.bind] at h
  | some offerha =>
    simp only [serviceOfferings, flagOf, hflag, bind, Except.bind, pure, Except.pure] at h
    obtain rfl := Except.ok.inj h
    exact ⟨offerha, rfl, fun _ => rfl⟩

/-- One that is created. -/
theorem create_serviceOfferings {e : ServiceOfferingElement}
    {make : { make : ℕ → ServiceOffering // ∀ n, (make n).id = n }}
    (h : serviceOfferings.create e = .ok make) :
    ∃ offerha created, e.offerha = some offerha ∧ e.created = some created ∧
      ∀ n, make.1 n =
        ⟨n, e.id, some (numberOf e.cpunumber), some (numberOf e.cpuspeed),
          some (numberOf e.memory), some (toBool offerha), some created⟩ := by
  cases hflag : e.offerha with
  | none => simp [serviceOfferings, flagOf, hflag, bind, Except.bind] at h
  | some offerha =>
    cases hdate : e.created with
    | none => simp [serviceOfferings, flagOf, hflag, dateOf, hdate, bind, Except.bind] at h
    | some created =>
      simp only [serviceOfferings, flagOf, hflag, dateOf, hdate, bind, Except.bind, pure,
        Except.pure] at h
      obtain rfl := Except.ok.inj h
      exact ⟨offerha, created, rfl, rfl, fun _ => rfl⟩

theorem lawful_templates : templates.Lawful where
  update := by
    intro e f hf row
    obtain rfl := Except.ok.inj hf
    rfl
  create := by
    intro e make hmake n
    obtain ⟨created, -, hrow⟩ := create_templates hmake
    rw [hrow]
    rfl

theorem lawful_diskOfferings : diskOfferings.Lawful where
  update := by
    intro e f hf row
    obtain rfl := Except.ok.inj hf
    rfl
  create := by
    intro e make hmake n
    obtain ⟨created, -, hrow⟩ := create_diskOfferings hmake
    rw [hrow]
    rfl

theorem lawful_serviceOfferings : serviceOfferings.Lawful where
  update := by
    intro e f hf row
    obtain ⟨offerha, -, hrow⟩ := update_serviceOfferings hf
    rw [hrow]
    rfl
  create := by
    intro e make hmake n
    obtain ⟨offerha, created, -, -, hrow⟩ := create_serviceOfferings hmake
    rw [hrow]
    rfl

/-- An element of a list of templates is written unless it is new and has no date. -/
theorem writable_templates {t : Table Template Template.id} {e : TemplateElement} :
    templates.Writable t e ↔
      ((templates.ids t).contains e.id || e.created.isSome) = true := by
  have hcreate : (∃ make, templates.create e = .ok make) ↔ e.created.isSome = true := by
    cases hdate : e.created <;>
      simp [templates, dateOf, hdate, bind, Except.bind, pure, Except.pure]
  have hupdate : ∃ f, templates.update e = .ok f := ⟨_, rfl⟩
  rw [Mirror.Writable, hcreate, Bool.or_eq_true, List.contains_iff_mem, or_iff_not_imp_left]
  exact and_iff_right fun _ => hupdate

/-- So is one of a list of disk offerings. -/
theorem writable_diskOfferings {t : Table DiskOffering DiskOffering.id}
    {e : DiskOfferingElement} :
    diskOfferings.Writable t e ↔
      ((diskOfferings.ids t).contains e.id || e.created.isSome) = true := by
  have hcreate : (∃ make, diskOfferings.create e = .ok make) ↔ e.created.isSome = true := by
    cases hdate : e.created <;>
      simp [diskOfferings, dateOf, hdate, bind, Except.bind, pure, Except.pure]
  have hupdate : ∃ f, diskOfferings.update e = .ok f := ⟨_, rfl⟩
  rw [Mirror.Writable, hcreate, Bool.or_eq_true, List.contains_iff_mem, or_iff_not_imp_left]
  exact and_iff_right fun _ => hupdate

/-- A service offering needs its flag as well, old or new. -/
theorem writable_serviceOfferings {t : Table ServiceOffering ServiceOffering.id}
    {e : ServiceOfferingElement} :
    serviceOfferings.Writable t e ↔
      (e.offerha.isSome && ((serviceOfferings.ids t).contains e.id || e.created.isSome)) =
        true := by
  rw [Mirror.Writable, Bool.and_eq_true, Bool.or_eq_true, List.contains_iff_mem]
  cases hflag : e.offerha with
  | none =>
    have hraises : flagOf e.offerha = .error .noMethodError := by rw [hflag]; rfl
    refine iff_of_false (fun h => ?_) (by simp)
    by_cases hmem : e.id ∈ serviceOfferings.ids t
    · obtain ⟨f, hf⟩ := h.1 hmem
      simp [serviceOfferings, hraises, bind, Except.bind] at hf
    · obtain ⟨make, hmake⟩ := h.2 hmem
      simp [serviceOfferings, hraises, bind, Except.bind] at hmake
  | some offerha =>
    have hflagged : flagOf e.offerha = .ok (toBool offerha) := by rw [hflag]; rfl
    have hupdate : ∃ f, serviceOfferings.update e = .ok f := by
      simp [serviceOfferings, hflagged, bind, Except.bind, pure, Except.pure]
    have hcreate : (∃ make, serviceOfferings.create e = .ok make) ↔
        e.created.isSome = true := by
      cases hdate : e.created <;>
        simp [serviceOfferings, hflagged, dateOf, hdate, bind, Except.bind, pure, Except.pure]
    rw [hcreate, or_iff_not_imp_left]
    exact ⟨fun h => ⟨rfl, h.2⟩, fun h => ⟨fun _ => hupdate, h.2⟩⟩

/-! ### The synchronisations -/

/-- What a synchronisation of one table comes to for the database. -/
theorem mirrored_onTable {ρ ε : Type} {key : ρ → ℕ} {m : Mirror ρ ε Raised key}
    (hm : m.Lawful) {get : Db → Table ρ key} {set : Db → Table ρ key → Db}
    (hset : ∀ db t, get (set db t) = t) {es : List ε} (hne : es ≠ [])
    (hsome : ∀ i ∈ es.map m.id, i.isSome = true) (hdistinct : (es.map m.id).Nodup) (db : Db) :
    (∃ db', run (onTable get set (m.sync es)) db = (.ok (), db') ∧
        (∀ i, i ∈ m.ids (get db') ↔ i ∈ es.map m.id) ∧ (m.ids (get db')).Nodup) ↔
      (∀ e ∈ es, m.Writable (get db) e) ∧ none ∉ m.ids (get db) ∧
        ∀ i ∈ es.map m.id, (m.ids (get db)).count i ≤ 1 := by
  have hsync := m.mirrors_sync_iff hm hne (fun e he => hsome _ (List.mem_map_of_mem he))
    hdistinct (get db)
  rw [List.forall_mem_map, ← hsync]
  constructor
  · rintro ⟨db', hrun, hsame, honce⟩
    rcases hout : run (m.sync es) (get db) with ⟨out, t'⟩
    have hdb : run (onTable get set (m.sync es)) db = (out, set db t') := by
      have hstep : m.sync es (get db) = (out, t') := hout
      simp only [run, onTable, hstep]
    obtain ⟨rfl, rfl⟩ := Prod.mk.inj (hdb.symm.trans hrun)
    rw [hset] at hsame honce
    exact ⟨t', rfl, hsame, honce⟩
  · rintro ⟨t', hrun, hmirrors⟩
    have hstep : m.sync es (get db) = (.ok (), t') := hrun
    refine ⟨set db t', by simp only [run, onTable, hstep], ?_⟩
    rw [hset]
    exact ⟨hmirrors.same, hmirrors.once⟩

/-- A reply that cannot be read is mirrored by no table. -/
theorem not_mirrored_of_raise {r : ListReply} {db : Db} {e : Raised}
    (h : r.sync = Eff.raise e) : ¬ r.Mirrored db := by
  rintro ⟨db', hrun, -⟩
  rw [h, run_raise] at hrun
  simp at hrun

/-- The condition for a reply that can be read. -/
theorem mirrorable_iff {r : ListReply} {db : Db} (hread : r.readable = true) :
    r.Mirrorable db ↔ r.writable db = true ∧ none ∉ r.local db ∧
      ∀ i ∈ r.ids, (r.local db).count i ≤ 1 :=
  ⟨fun h => ⟨h.writable, h.noNull, h.noTwins⟩,
    fun ⟨hwrite, hnull, htwins⟩ => ⟨hread, hwrite, hnull, htwins⟩⟩

theorem mirrored_template {e : TemplateElement} {es : List TemplateElement}
    (hr : (ListReply.template (e :: es)).WellFormed) (db : Db) :
    (ListReply.template (e :: es)).Mirrored db ↔
      (ListReply.template (e :: es)).Mirrorable db := by
  have hwritable : ListReply.writable db (.template (e :: es)) = true ↔
      ∀ e' ∈ e :: es, templates.Writable db.templates e' := by
    rw [ListReply.writable, List.all_eq_true]
    exact forall₂_congr fun e' _ => writable_templates.symm
  rw [mirrorable_iff (by simp [ListReply.readable]), hwritable]
  exact @mirrored_onTable _ _ _ _ lawful_templates Db.templates
    (fun db t => { db with templates := t }) (fun _ _ => rfl) _ (List.cons_ne_nil e es) hr.some
    hr.distinct db

theorem mirrored_diskOffering {e e' : DiskOfferingElement} {es : List DiskOfferingElement}
    (hr : (ListReply.diskOffering (e :: e' :: es)).WellFormed) (db : Db) :
    (ListReply.diskOffering (e :: e' :: es)).Mirrored db ↔
      (ListReply.diskOffering (e :: e' :: es)).Mirrorable db := by
  have hwritable : ListReply.writable db (.diskOffering (e :: e' :: es)) = true ↔
      ∀ e'' ∈ e :: e' :: es, diskOfferings.Writable db.diskOfferings e'' := by
    rw [ListReply.writable, List.all_eq_true]
    exact forall₂_congr fun e'' _ => writable_diskOfferings.symm
  rw [mirrorable_iff (by simp [ListReply.readable]), hwritable]
  exact @mirrored_onTable _ _ _ _ lawful_diskOfferings Db.diskOfferings
    (fun db t => { db with diskOfferings := t }) (fun _ _ => rfl) _ (List.cons_ne_nil e _) hr.some
    hr.distinct db

theorem mirrored_serviceOffering {e e' : ServiceOfferingElement}
    {es : List ServiceOfferingElement}
    (hr : (ListReply.serviceOffering (e :: e' :: es)).WellFormed) (db : Db) :
    (ListReply.serviceOffering (e :: e' :: es)).Mirrored db ↔
      (ListReply.serviceOffering (e :: e' :: es)).Mirrorable db := by
  have hwritable : ListReply.writable db (.serviceOffering (e :: e' :: es)) = true ↔
      ∀ e'' ∈ e :: e' :: es, serviceOfferings.Writable db.serviceOfferings e'' := by
    rw [ListReply.writable, List.all_eq_true]
    exact forall₂_congr fun e'' _ => writable_serviceOfferings.symm
  rw [mirrorable_iff (by simp [ListReply.readable]), hwritable]
  exact @mirrored_onTable _ _ _ _ lawful_serviceOfferings Db.serviceOfferings
    (fun db t => { db with serviceOfferings := t }) (fun _ _ => rfl) _ (List.cons_ne_nil e _)
    hr.some hr.distinct db

/-- **Exactly when a synchronisation mirrors its list.** -/
theorem mirrored_iff {r : ListReply} (hr : r.WellFormed) (db : Db) :
    r.Mirrored db ↔ r.Mirrorable db := by
  have hunread : ∀ {r : ListReply} {ex : Raised}, r.sync = Eff.raise ex → r.readable = false →
      (r.Mirrored db ↔ r.Mirrorable db) := by
    intro r ex hraise hread
    refine iff_of_false (not_mirrored_of_raise hraise) fun h => ?_
    rw [h.readable] at hread
    exact Bool.false_ne_true hread.symm
  cases r with
  | template es =>
    cases es with
    | nil => exact hunread rfl rfl
    | cons e es => exact mirrored_template hr db
  | diskOffering es =>
    match es with
    | [] => exact hunread rfl rfl
    | [e] => exact hunread rfl rfl
    | e :: e' :: es => exact mirrored_diskOffering hr db
  | serviceOffering es =>
    match es with
    | [] => exact hunread rfl rfl
    | [e] => exact hunread rfl rfl
    | e :: e' :: es => exact mirrored_serviceOffering hr db

/-! ### Small lists -/

/-- One template of the cloud. -/
def oneTemplate : ListReply := .template [⟨some "tpl-1", some "centos", none, none, some "2013"⟩]

/-- It is mirrored in an empty table. -/
theorem mirrored_oneTemplate : oneTemplate.Mirrored emptyDb := by
  refine (mirrored_iff ⟨by decide, by decide⟩ emptyDb).mpr ⟨by decide, by decide, ?_, ?_⟩
  · decide
  · decide

/-- One disk offering of the cloud. -/
def oneDiskOffering : ListReply :=
  .diskOffering [⟨some "do-1", some "20", none, none, some "2013"⟩]

/-- **A single disk offering is not**, nor is an empty list by a table that has a row. -/
theorem single_not_mirrored :
    ¬ oneDiskOffering.Mirrored emptyDb ∧
      ¬ ListReply.Mirrored (.template []) (run oneTemplate.sync emptyDb).2 :=
  ⟨not_mirrored_of_raise rfl, not_mirrored_of_raise rfl⟩

end BkPlatform.Portal
