import BkPlatform.Lib.Mirror

/-!
# Mirrors that overwrite

A mirror overwrites if what an update comes to does not depend on the updates before it.
Then of several elements with one id the last one alone shows in the row, and a second
synchronisation with the same list finds every row as it is going to write it, provided
that a row which an element has created is one the element leaves as it is.

## Main definitions

* `Mirror.Overwriting` — updates overwrite each other.
* `Mirror.overAll` — the updates of a list, without creations.
* `Mirror.Settled` — an update leaves a row created from the same element as it is.
* `Mirror.written` — the elements that are written before one cannot be.
* `Mirror.Untouched` — nothing is deleted, created or changed by a synchronisation.

## Main results

* `Mirror.overAll_eq_iff` — the last update of each id decides what is changed.
* `Mirror.run_sync_twice` — **a second synchronisation with the same list does nothing.**
* `Mirror.state_run_sync_eq_iff` — **exactly when a synchronisation leaves the table as it
  was**, whether it raises or not.
-/

namespace Mirror

open Eff

variable {ρ ε err : Type} {key : ρ → ℕ} (m : Mirror ρ ε err key)

/-! ### Updates -/

/-- What an update comes to does not depend on those before it, and an element that can
create a row can update one. -/
structure Overwriting : Prop extends m.Lawful where
  absorbs : ∀ e e' f f', m.update e = .ok f → m.update e' = .ok f' →
    ∀ row, f'.1 (f.1 row) = f'.1 row
  updates : ∀ e make, m.create e = .ok make → ∃ f, m.update e = .ok f

/-- What an update makes of a row; one that cannot be made leaves it. -/
def upd (e : ε) (row : ρ) : ρ :=
  match m.update e with
  | .ok f => f.1 row
  | .error _ => row

/-- The key of the first row with a remote id. -/
def first (t : Table ρ key) (i : Option String) : Option ℕ :=
  (t.rows.find? fun r => m.remoteId r == i).map key

/-- What an element makes of a row of the table: only the first with its id is updated. -/
def edit (t : Table ρ key) (e : ε) (row : ρ) : ρ :=
  if m.first t (m.id e) = some (key row) then m.upd e row else row

theorem key_upd (e : ε) (row : ρ) : key (m.upd e row) = key row := by
  unfold upd
  cases m.update e with
  | ok f => exact f.2 row
  | error ex => rfl

theorem key_edit (t : Table ρ key) (e : ε) (row : ρ) : key (m.edit t e row) = key row := by
  unfold edit
  split
  · exact m.key_upd e row
  · rfl

/-- The update of the first row with the id of the element. -/
def overOne (e : ε) (t : Table ρ key) : Table ρ key := t.modify (m.edit t e) (m.key_edit t e)

/-- The updates of the elements in their order. -/
def overAll : List ε → Table ρ key → Table ρ key
  | [], t => t
  | e :: es, t => overAll es (m.overOne e t)

/-- The first row with the id of the element has what an update would write. -/
def Holds (t : Table ρ key) (e : ε) : Prop :=
  ∀ row, t.rows.find? (fun r => m.remoteId r == m.id e) = some row → m.upd e row = row

/-- Each element is followed by another with its id, or its row has what it says. -/
def Stored : List ε → Table ρ key → Prop
  | [], _ => True
  | e :: es, t => (m.id e ∈ es.map m.id ∨ m.Holds t e) ∧ Stored es t

/-- The element can update a row. -/
def Updatable (e : ε) : Prop := ∃ f, m.update e = .ok f

variable {m}

theorem Overwriting.remoteId_upd (hm : m.Overwriting) (e : ε) (row : ρ) :
    m.remoteId (m.upd e row) = m.remoteId row := by
  unfold upd
  cases hupdate : m.update e with
  | ok f => exact hm.update e f hupdate row
  | error ex => rfl

theorem Overwriting.remoteId_edit (hm : m.Overwriting) (t : Table ρ key) (e : ε) (row : ρ) :
    m.remoteId (m.edit t e row) = m.remoteId row := by
  unfold edit
  split
  · exact hm.remoteId_upd e row
  · rfl

theorem Overwriting.upd_upd (hm : m.Overwriting) {e' : ε} (he' : m.Updatable e') (e : ε)
    (row : ρ) : m.upd e' (m.upd e row) = m.upd e' row := by
  obtain ⟨f', hf'⟩ := he'
  unfold upd
  rw [hf']
  cases hupdate : m.update e with
  | ok f => exact hm.absorbs e e' f f' hupdate hf' row
  | error ex => rfl

/-- A row is found where it was, as the update has left it. -/
theorem Overwriting.find_overOne (hm : m.Overwriting) (e : ε) (t : Table ρ key)
    (i : Option String) :
    (m.overOne e t).rows.find? (fun r => m.remoteId r == i) =
      (t.rows.find? fun r => m.remoteId r == i).map (m.edit t e) := by
  have hsame : ((fun r => m.remoteId r == i) ∘ m.edit t e) = fun r => m.remoteId r == i := by
    funext r
    rw [Function.comp_apply, hm.remoteId_edit]
  show (t.rows.map (m.edit t e)).find? (fun r => m.remoteId r == i) = _
  rw [List.find?_map, hsame]

theorem Overwriting.first_overOne (hm : m.Overwriting) (e : ε) (t : Table ρ key)
    (i : Option String) : m.first (m.overOne e t) i = m.first t i := by
  unfold first
  rw [hm.find_overOne, Option.map_map]
  congr 1
  funext r
  exact m.key_edit t e r

theorem Overwriting.edit_overOne (hm : m.Overwriting) (e e' : ε) (t : Table ρ key) :
    m.edit (m.overOne e t) e' = m.edit t e' := by
  funext row
  unfold edit
  rw [hm.first_overOne]

theorem Overwriting.ids_overOne (hm : m.Overwriting) (e : ε) (t : Table ρ key) :
    m.ids (m.overOne e t) = m.ids t := by
  show (t.rows.map (m.edit t e)).map m.remoteId = t.rows.map m.remoteId
  rw [List.map_map]
  exact List.map_congr_left fun r _ => hm.remoteId_edit t e r

theorem remoteId_of_first {t : Table ρ key} {i : Option String} {row : ρ} (hrow : row ∈ t.rows)
    (h : m.first t i = some (key row)) : m.remoteId row = i := by
  obtain ⟨r, hr, hkey⟩ := Option.map_eq_some_iff.mp h
  obtain rfl := t.eq_of_key (List.mem_of_find?_eq_some hr) hrow hkey
  have hid := List.find?_some hr
  exact beq_iff_eq.mp hid

/-- An update of the row just updated is the later one alone. -/
theorem Overwriting.overOne_same (hm : m.Overwriting) {e e' : ε} (he' : m.Updatable e')
    (hid : m.id e = m.id e') (t : Table ρ key) : m.overOne e' (m.overOne e t) = m.overOne e' t := by
  refine Table.eq_of_rows ?_ rfl
  show (t.rows.map (m.edit t e)).map (m.edit (m.overOne e t) e') = t.rows.map (m.edit t e')
  rw [hm.edit_overOne, List.map_map]
  refine List.map_congr_left fun row _ => ?_
  show m.edit t e' (m.edit t e row) = m.edit t e' row
  by_cases hfirst : m.first t (m.id e') = some (key row)
  · simp only [edit, hid, hfirst, if_true, m.key_upd]
    exact hm.upd_upd he' e row
  · simp only [edit, hid, hfirst, if_false]

/-- Updates of two rows can be made in either order. -/
theorem Overwriting.overOne_comm (hm : m.Overwriting) {e e' : ε} (hid : m.id e ≠ m.id e')
    (t : Table ρ key) : m.overOne e' (m.overOne e t) = m.overOne e (m.overOne e' t) := by
  refine Table.eq_of_rows ?_ rfl
  show (t.rows.map (m.edit t e)).map (m.edit (m.overOne e t) e') =
    (t.rows.map (m.edit t e')).map (m.edit (m.overOne e' t) e)
  rw [hm.edit_overOne, hm.edit_overOne, List.map_map, List.map_map]
  refine List.map_congr_left fun row hrow => ?_
  show m.edit t e' (m.edit t e row) = m.edit t e (m.edit t e' row)
  by_cases hfirst : m.first t (m.id e) = some (key row)
  · have hother : m.first t (m.id e') ≠ some (key row) := fun h =>
      hid ((remoteId_of_first hrow hfirst).symm.trans (remoteId_of_first hrow h))
    simp only [edit, hfirst, hother, if_true, if_false, m.key_upd]
  · by_cases hother : m.first t (m.id e') = some (key row)
    · simp only [edit, hfirst, hother, if_true, if_false, m.key_upd]
    · simp only [edit, hfirst, hother, if_false]

theorem overOne_eq_iff {e : ε} {t : Table ρ key} : m.overOne e t = t ↔ m.Holds t e := by
  have hrows : m.overOne e t = t ↔ ∀ row ∈ t.rows, m.edit t e row = row := by
    constructor
    · intro h row hrow
      have hsame : t.rows.map (m.edit t e) = t.rows.map fun r => r := by
        rw [List.map_id']
        exact congrArg Table.rows h
      exact List.map_inj_left.mp hsame row hrow
    · intro h
      refine Table.eq_of_rows ?_ rfl
      show t.rows.map (m.edit t e) = t.rows
      exact (List.map_congr_left h).trans (List.map_id' t.rows)
  rw [hrows]
  constructor
  · intro h row hrow
    have hfirst : m.first t (m.id e) = some (key row) := by rw [first, hrow, Option.map_some]
    have hedit := h row (List.mem_of_find?_eq_some hrow)
    rwa [edit, if_pos hfirst] at hedit
  · intro h row hrow
    unfold edit
    split
    · next hfirst =>
      obtain ⟨r, hr, hkey⟩ := Option.map_eq_some_iff.mp hfirst
      obtain rfl := t.eq_of_key (List.mem_of_find?_eq_some hr) hrow hkey
      exact h r hr
    · rfl

/-! ### The last update of each id -/

/-- An update is lost if one with its id follows. -/
theorem Overwriting.overAll_overOne (hm : m.Overwriting) {e : ε} {es : List ε}
    (hes : ∀ e' ∈ es, m.Updatable e') (h : m.id e ∈ es.map m.id) (t : Table ρ key) :
    m.overAll es (m.overOne e t) = m.overAll es t := by
  induction es generalizing t with
  | nil => exact absurd h List.not_mem_nil
  | cons e' es ih =>
    obtain ⟨he', hrest⟩ := List.forall_mem_cons.mp hes
    unfold overAll
    by_cases hid : m.id e = m.id e'
    · rw [hm.overOne_same he' hid]
    · have hlater : m.id e ∈ es.map m.id := by
        rcases List.mem_cons.mp h with heq | hmem
        · exact absurd heq hid
        · exact hmem
      rw [hm.overOne_comm hid, ih hrest hlater]

/-- An update of a row that none of the others concern can be made last. -/
theorem Overwriting.overAll_comm (hm : m.Overwriting) {e : ε} {es : List ε}
    (h : m.id e ∉ es.map m.id) (t : Table ρ key) :
    m.overAll es (m.overOne e t) = m.overOne e (m.overAll es t) := by
  induction es generalizing t with
  | nil => rfl
  | cons e' es ih =>
    rw [List.map_cons, List.mem_cons, not_or] at h
    unfold overAll
    rw [hm.overOne_comm h.1, ih h.2]

/-- **The last update of each id decides**: the updates leave the table as it is exactly if
those have nothing to change. -/
theorem Overwriting.overAll_eq_iff (hm : m.Overwriting) {es : List ε}
    (hes : ∀ e ∈ es, m.Updatable e) {t : Table ρ key} :
    m.overAll es t = t ↔ m.Stored es t := by
  induction es with
  | nil => exact iff_of_true rfl trivial
  | cons e es ih =>
    obtain ⟨he, hrest⟩ := List.forall_mem_cons.mp hes
    specialize ih hrest
    rw [Stored, overAll, ← ih, ← overOne_eq_iff]
    by_cases hmem : m.id e ∈ es.map m.id
    · rw [hm.overAll_overOne hrest hmem]
      exact ⟨fun h => ⟨Or.inl hmem, h⟩, fun h => h.2⟩
    · constructor
      · intro h
        -- the update of `e` is in the table, whatever the others have done
        have hlast := (hm.overAll_comm hmem t).symm.trans h
        have hover : m.overOne e t = t := by
          rw [← hlast, hm.overOne_same he rfl]
        exact ⟨Or.inr hover, by rwa [hover] at h⟩
      · rintro ⟨h | h, hall⟩
        · exact absurd h hmem
        · rw [h, hall]

/-! ### One element -/

variable (m)

/-- The element is written, as the table is. -/
def accepts (t : Table ρ key) (e : ε) : Bool :=
  if (m.ids t).contains (m.id e) then (m.update e).isOk else (m.create e).isOk

/-- The elements that are written, before one cannot be. -/
def written (t : Table ρ key) (es : List ε) : List ε := es.takeWhile (m.accepts t)

variable {m}

/-- What one element does: it updates a row, creates one, or cannot be written. -/
inductive OneDoes (m : Mirror ρ ε err key) (t : Table ρ key) (e : ε) : Prop
  | updates (hid : m.id e ∈ m.ids t) (hupdate : m.Updatable e) (haccepts : m.accepts t e = true)
      (hrun : run (m.one e) t = (.ok (), m.overOne e t))
  | creates (make : { make : ℕ → ρ // ∀ n, key (make n) = n }) (hid : m.id e ∉ m.ids t)
      (hcreate : m.create e = .ok make) (haccepts : m.accepts t e = true)
      (hrun : run (m.one e) t = (.ok (), t.insert make.1 make.2))
  | raises (ex : err) (haccepts : m.accepts t e = false) (hrun : run (m.one e) t = (.error ex, t))

theorem one_does (m : Mirror ρ ε err key) (t : Table ρ key) (e : ε) : OneDoes m t e := by
  by_cases hmem : m.id e ∈ m.ids t
  · obtain ⟨row, hrow⟩ := find_of_mem hmem
    have haccepts : m.accepts t e = (m.update e).isOk := by
      rw [accepts, if_pos (List.contains_iff_mem.mpr hmem)]
    cases hupdate : m.update e with
    | ok f =>
      refine .updates hmem ⟨f, hupdate⟩ (by rw [haccepts, hupdate]; rfl) ?_
      have hput : put row f t = m.overOne e t := by
        refine Table.eq_of_rows ?_ rfl
        show t.rows.map (fun r => if key r = key row then f.1 r else r) = t.rows.map (m.edit t e)
        refine List.map_congr_left fun r _ => ?_
        simp only [edit, upd, first, hrow, hupdate, Option.map_some, Option.some_inj,
          eq_comm (a := key r)]
      simp [run, one, hrow, hupdate, hput]
    | error ex =>
      refine .raises ex (by rw [haccepts, hupdate]; rfl) ?_
      simp [run, one, hrow, hupdate]
  · have hnone := find_of_not_mem hmem
    have haccepts : m.accepts t e = (m.create e).isOk := by
      rw [accepts, if_neg (fun h => hmem (List.contains_iff_mem.mp h))]
    cases hcreate : m.create e with
    | ok make =>
      refine .creates make hmem hcreate (by rw [haccepts, hcreate]; rfl) ?_
      simp [run, one, hnone, hcreate]
    | error ex =>
      refine .raises ex (by rw [haccepts, hcreate]; rfl) ?_
      simp [run, one, hnone, hcreate]

/-! ### A second synchronisation -/

variable (m)

/-- An update leaves a row created from the same element as it is. -/
def Settled (e : ε) : Prop :=
  ∀ f make, m.update e = .ok f → m.create e = .ok make → ∀ n, f.1 (make.1 n) = make.1 n

variable {m}

theorem ids_insert (hm : m.Overwriting) {e : ε} {make : { make : ℕ → ρ // ∀ n, key (make n) = n }}
    (hcreate : m.create e = .ok make) (t : Table ρ key) :
    m.ids (t.insert make.1 make.2) = m.ids t ++ [m.id e] := by
  simp [ids, Table.insert, hm.create e make hcreate]

/-- An element that has been written is in the table, can update its row, and the row has
what it says. -/
theorem holds_one (hm : m.Overwriting) {e : ε} (hsettled : m.Settled e) {t t' : Table ρ key}
    (hrun : run (m.one e) t = (.ok (), t')) :
    m.id e ∈ m.ids t' ∧ m.Updatable e ∧ m.Holds t' e := by
  cases m.one_does t e with
  | updates hid hupdate haccepts hone =>
    obtain rfl := (Prod.mk.inj (hone.symm.trans hrun)).2
    refine ⟨by rwa [hm.ids_overOne], hupdate, ?_⟩
    rw [← overOne_eq_iff, hm.overOne_same hupdate rfl]
  | creates make hid hcreate haccepts hone =>
    obtain rfl := (Prod.mk.inj (hone.symm.trans hrun)).2
    obtain ⟨f, hf⟩ := hm.updates e make hcreate
    refine ⟨by simp [ids_insert hm hcreate], ⟨f, hf⟩, fun row hrow => ?_⟩
    -- there was no row with the id, so that the new one is found
    have hnew : row = make.1 t.nextId := by
      rw [Table.insert, List.find?_append, find_of_not_mem hid] at hrow
      simpa [hm.create e make hcreate, eq_comm] using hrow
    rw [hnew, upd, hf]
    exact hsettled f make hf hcreate t.nextId
  | raises ex haccepts hone =>
    rw [hone] at hrun
    cases hrun

/-- Another element leaves that as it is. -/
theorem holds_one_other (hm : m.Overwriting) {e e' : ε} (hid : m.id e' ≠ m.id e)
    {t t' : Table ρ key} (hrun : run (m.one e) t = (.ok (), t')) (hmem : m.id e' ∈ m.ids t)
    (hholds : m.Holds t e') : m.id e' ∈ m.ids t' ∧ m.Holds t' e' := by
  cases m.one_does t e with
  | updates hid' hupdate haccepts hone =>
    obtain rfl := (Prod.mk.inj (hone.symm.trans hrun)).2
    refine ⟨by rwa [hm.ids_overOne], ?_⟩
    rw [← overOne_eq_iff] at hholds ⊢
    rw [hm.overOne_comm hid.symm, hholds]
  | creates make hnew hcreate haccepts hone =>
    obtain rfl := (Prod.mk.inj (hone.symm.trans hrun)).2
    refine ⟨by rw [ids_insert hm hcreate]; exact List.mem_append_left _ hmem, fun row hrow => ?_⟩
    obtain ⟨old, hold⟩ := find_of_mem hmem
    rw [Table.insert, List.find?_append, hold, Option.some_or] at hrow
    obtain rfl := Option.some.inj hrow
    exact hholds old hold
  | raises ex haccepts hone =>
    rw [hone] at hrun
    cases hrun

/-- The same over the elements that follow. -/
theorem holds_each_other (hm : m.Overwriting) {e' : ε} {es : List ε}
    (hid : m.id e' ∉ es.map m.id) {t t' : Table ρ key}
    (hrun : run (m.each es) t = (.ok (), t')) (hmem : m.id e' ∈ m.ids t)
    (hholds : m.Holds t e') : m.Holds t' e' := by
  induction es generalizing t with
  | nil =>
    obtain rfl := (Prod.mk.inj hrun).2
    exact hholds
  | cons e es ih =>
    rw [List.map_cons, List.mem_cons, not_or] at hid
    rcases hone : run (m.one e) t with ⟨ex | u, t₁⟩
    · rw [each, run_bind_error hone] at hrun
      cases hrun
    · rw [each, run_bind_ok hone] at hrun
      obtain ⟨hmem₁, hholds₁⟩ := holds_one_other hm hid.1 hone hmem hholds
      exact ih hid.2 hrun hmem₁ hholds₁

/-- The remote ids of a table only become more. -/
theorem mem_ids_one (hm : m.Overwriting) {e : ε} {t : Table ρ key} {i : Option String} :
    i ∈ m.ids t → i ∈ m.ids (run (m.one e) t).2 := by
  intro hmem
  cases m.one_does t e with
  | updates hid hupdate haccepts hone => rwa [hone, hm.ids_overOne]
  | creates make hid hcreate haccepts hone =>
    rw [hone, ids_insert hm hcreate]
    exact List.mem_append_left _ hmem
  | raises ex haccepts hone => rwa [hone]

theorem mem_ids_each (hm : m.Overwriting) {es : List ε} {t : Table ρ key} {i : Option String}
    (hmem : i ∈ m.ids t) : i ∈ m.ids (run (m.each es) t).2 := by
  induction es generalizing t with
  | nil => exact hmem
  | cons e es ih =>
    have hfirst := mem_ids_one hm (e := e) hmem
    rw [each, run_bind]
    rcases hone : run (m.one e) t with ⟨ex | u, t₁⟩
    · rwa [hone] at hfirst
    · rw [hone] at hfirst
      exact ih hfirst

/-- What the elements leave behind: each is there, can be updated, and if no other with its
id follows its row has what it says. -/
theorem stored_each (hm : m.Overwriting) {es : List ε} (hsettled : ∀ e ∈ es, m.Settled e)
    {t t' : Table ρ key} (hrun : run (m.each es) t = (.ok (), t')) :
    (∀ e ∈ es, m.id e ∈ m.ids t' ∧ m.Updatable e) ∧ m.Stored es t' := by
  induction es generalizing t with
  | nil => exact ⟨fun _ h => absurd h List.not_mem_nil, trivial⟩
  | cons e es ih =>
    rw [List.forall_mem_cons] at hsettled
    rcases hone : run (m.one e) t with ⟨ex | u, t₁⟩
    · rw [each, run_bind_error hone] at hrun
      cases hrun
    · rw [each, run_bind_ok hone] at hrun
      obtain ⟨hmem, hupdate, hholds⟩ := holds_one hm hsettled.1 hone
      obtain ⟨hall, hstored⟩ := ih hsettled.2 hrun
      have hlater : m.id e ∈ m.ids (run (m.each es) t₁).2 := mem_ids_each hm hmem
      rw [hrun] at hlater
      refine ⟨List.forall_mem_cons.mpr ⟨⟨hlater, hupdate⟩, hall⟩, ?_, hstored⟩
      by_cases hid : m.id e ∈ es.map m.id
      · exact Or.inl hid
      · exact Or.inr (holds_each_other hm hid hrun hmem hholds)

/-- A run over a list ends with the list, or stops at an element that cannot be written. -/
theorem each_split (m : Mirror ρ ε err key) (es : List ε) (t : Table ρ key) :
    ∃ before after, es = before ++ after ∧
      run (m.each before) t = (.ok (), (run (m.each es) t).2) ∧
      run (m.each after) (run (m.each es) t).2 = run (m.each es) t := by
  induction es generalizing t with
  | nil => exact ⟨[], [], rfl, rfl, rfl⟩
  | cons e es ih =>
    rcases hone : run (m.one e) t with ⟨ex | u, t₁⟩
    · have hsame : t₁ = t := by
        cases m.one_does t e with
        | updates hid hupdate haccepts hrun =>
          rw [hone] at hrun
          cases hrun
        | creates make hid hcreate haccepts hrun =>
          rw [hone] at hrun
          cases hrun
        | raises ex' haccepts hrun => exact (Prod.mk.inj (hone.symm.trans hrun)).2
      rw [hsame] at hone
      have hall : run (m.each (e :: es)) t = (.error ex, t) := run_bind_error hone
      exact ⟨[], e :: es, rfl, by rw [hall]; rfl, by rw [hall]; exact hall⟩
    · have hall : run (m.each (e :: es)) t = run (m.each es) t₁ := run_bind_ok hone
      obtain ⟨before, after, rfl, hbefore, hafter⟩ := ih t₁
      refine ⟨e :: before, after, rfl, ?_, ?_⟩
      · rw [hall, each, run_bind_ok hone, hbefore]
      · rw [hall, hafter]

theorem run_each_append {xs ys : List ε} {t t' : Table ρ key}
    (hrun : run (m.each xs) t = (.ok (), t')) :
    run (m.each (xs ++ ys)) t = run (m.each ys) t' := by
  induction xs generalizing t with
  | nil =>
    obtain rfl := (Prod.mk.inj hrun).2
    rfl
  | cons x xs ih =>
    rcases hone : run (m.one x) t with ⟨ex | u, t₁⟩
    · rw [each, run_bind_error hone] at hrun
      cases hrun
    · rw [each, run_bind_ok hone] at hrun
      rw [List.cons_append, each, run_bind_ok hone, ih hrun]

/-- Elements whose rows are there are written by updates alone. -/
theorem run_each_overAll (hm : m.Overwriting) {es : List ε} {t : Table ρ key}
    (hes : ∀ e ∈ es, m.id e ∈ m.ids t ∧ m.Updatable e) :
    run (m.each es) t = (.ok (), m.overAll es t) := by
  induction es generalizing t with
  | nil => rfl
  | cons e es ih =>
    obtain ⟨⟨hmem, f, hf⟩, hrest⟩ := List.forall_mem_cons.mp hes
    rw [overAll, each]
    cases m.one_does t e with
    | updates hid hupdate haccepts hone =>
      rw [run_bind_ok hone]
      exact ih fun e' he' => by rw [hm.ids_overOne]; exact hrest e' he'
    | creates make hid hcreate haccepts hone => exact absurd hmem hid
    | raises ex haccepts hone =>
      rw [accepts, if_pos (List.contains_iff_mem.mpr hmem), hf] at haccepts
      cases haccepts

/-- An id of the list is in it. -/
theorem notIn_of_mem {listed : List (Option String)} {i : Option String} (h : i ∈ listed) :
    notIn listed i = false := by
  cases i with
  | none => rfl
  | some value =>
    rw [notIn, Bool.and_eq_false_iff]
    refine Or.inr (List.all_eq_false.mpr ⟨some value, h, ?_⟩)
    simp

/-- The ids after a run are those before it and those of the list. -/
theorem ids_each_subset (hm : m.Overwriting) {es : List ε} {t : Table ρ key} {i : Option String}
    (h : i ∈ m.ids (run (m.each es) t).2) : i ∈ m.ids t ∨ i ∈ es.map m.id := by
  induction es generalizing t with
  | nil => exact Or.inl h
  | cons e es ih =>
    have hfirst : ∀ t₁, (run (m.one e) t).2 = t₁ → i ∈ m.ids t₁ →
        i ∈ m.ids t ∨ i ∈ (e :: es).map m.id := by
      rintro t₁ rfl h₁
      cases m.one_does t e with
      | updates hid hupdate haccepts hone =>
        rw [hone, hm.ids_overOne] at h₁
        exact Or.inl h₁
      | creates make hid hcreate haccepts hone =>
        rw [hone, ids_insert hm hcreate, List.mem_append, List.mem_singleton] at h₁
        rcases h₁ with hold | rfl
        · exact Or.inl hold
        · exact Or.inr List.mem_cons_self
      | raises ex haccepts hone =>
        rw [hone] at h₁
        exact Or.inl h₁
    rw [each, run_bind] at h
    rcases hone : run (m.one e) t with ⟨ex | u, t₁⟩
    · rw [hone] at h
      exact hfirst t₁ (by rw [hone]) h
    · rw [hone] at h
      rcases ih h with hold | hnew
      · exact hfirst t₁ (by rw [hone]) hold
      · exact Or.inr (List.mem_cons_of_mem _ hnew)

/-- **A second synchronisation with the same list does what the first has done, and nothing
to the table.** -/
theorem run_sync_twice (hm : m.Overwriting) {es : List ε} (hsettled : ∀ e ∈ es, m.Settled e)
    (t : Table ρ key) : run (m.sync es) (run (m.sync es) t).2 = run (m.sync es) t := by
  let kept := t.keep fun row => !notIn (es.map m.id) (m.remoteId row)
  let t' := (run (m.each es) kept).2
  have hsync : run (m.sync es) t = run (m.each es) kept := rfl
  -- no row is deleted: those with an id of the list stay, the others have just been kept
  have hspared : t'.keep (fun row => !notIn (es.map m.id) (m.remoteId row)) = t' := by
    refine Table.keep_eq_iff.mpr fun row hrow => ?_
    rcases ids_each_subset hm (List.mem_map_of_mem (f := m.remoteId) hrow) with hold | hlisted
    · obtain ⟨old, hold, hid⟩ := List.mem_map.mp hold
      rw [← hid]
      exact (Table.mem_keep.mp hold).2
    · rw [notIn_of_mem hlisted]
      rfl
  have hagain : run (m.sync es) t' = run (m.each es) t' := by
    show run (m.each es) (t'.keep _) = _
    rw [hspared]
  rw [hsync, hagain]
  -- what has been written is written again, and changes nothing
  obtain ⟨before, after, hes, hbefore, hafter⟩ := m.each_split es kept
  have hsettled' : ∀ e ∈ before, m.Settled e := fun e he =>
    hsettled e (hes ▸ List.mem_append_left _ he)
  obtain ⟨hthere, hstored⟩ := stored_each hm hsettled' hbefore
  have hnothing : m.overAll before t' = t' :=
    (hm.overAll_eq_iff fun e he => (hthere e he).2).mpr hstored
  have hbefore' : run (m.each before) t' = (.ok (), t') := by
    rw [run_each_overAll hm hthere, hnothing]
  calc run (m.each es) t' = run (m.each (before ++ after)) t' := by rw [← hes]
    _ = run (m.each after) t' := run_each_append hbefore'
    _ = run (m.each es) kept := hafter

/-! ### A synchronisation that does nothing -/

variable (m)

/-- Nothing is deleted, nothing is created before an element that cannot be written, and
nothing is changed. -/
structure Untouched (es : List ε) (t : Table ρ key) : Prop where
  spared : ∀ row ∈ t.rows, notIn (es.map m.id) (m.remoteId row) = false
  known : ∀ e ∈ m.written t es, m.id e ∈ m.ids t
  stored : m.Stored (m.written t es) t

variable {m}

theorem written_cons (m : Mirror ρ ε err key) {e : ε} {t : Table ρ key}
    (h : m.accepts t e = true) (es : List ε) : m.written t (e :: es) = e :: m.written t es :=
  List.takeWhile_cons_of_pos h

theorem written_nil (m : Mirror ρ ε err key) {e : ε} {t : Table ρ key}
    (h : m.accepts t e = false) (es : List ε) : m.written t (e :: es) = [] :=
  List.takeWhile_cons_of_neg (by rw [h]; exact Bool.false_ne_true)

theorem Overwriting.written_overOne (hm : m.Overwriting) (e : ε) (t : Table ρ key) (es : List ε) :
    m.written (m.overOne e t) es = m.written t es := by
  have hsame : m.accepts (m.overOne e t) = m.accepts t := by
    funext e'
    rw [accepts, accepts, hm.ids_overOne]
  rw [written, written, hsame]

/-- The elements that are written are updates, if their rows are there. -/
theorem state_run_each_known (hm : m.Overwriting) {es : List ε} {t : Table ρ key}
    (hknown : ∀ e ∈ m.written t es, m.id e ∈ m.ids t) :
    (run (m.each es) t).2 = m.overAll (m.written t es) t ∧
      ∀ e ∈ m.written t es, m.Updatable e := by
  induction es generalizing t with
  | nil => exact ⟨rfl, fun _ h => absurd h List.not_mem_nil⟩
  | cons e es ih =>
    cases m.one_does t e with
    | updates hid hupdate haccepts hone =>
      have hwritten := m.written_cons haccepts es
      rw [hwritten, List.forall_mem_cons] at hknown ⊢
      have hrest : ∀ e' ∈ m.written (m.overOne e t) es, m.id e' ∈ m.ids (m.overOne e t) := by
        rw [hm.written_overOne, hm.ids_overOne]
        exact hknown.2
      obtain ⟨hstate, hall⟩ := ih hrest
      rw [hm.written_overOne] at hstate hall
      refine ⟨?_, hupdate, hall⟩
      rw [each, run_bind_ok hone, hstate, overAll]
    | creates make hid hcreate haccepts hone =>
      have hwritten := m.written_cons haccepts es
      rw [hwritten] at hknown
      exact absurd (hknown e List.mem_cons_self) hid
    | raises ex haccepts hone =>
      have hwritten := m.written_nil haccepts es
      rw [hwritten, each, run_bind_error hone]
      exact ⟨rfl, fun _ h => absurd h List.not_mem_nil⟩

theorem nextId_le_each (m : Mirror ρ ε err key) (es : List ε) (t : Table ρ key) :
    t.nextId ≤ (run (m.each es) t).2.nextId := by
  induction es generalizing t with
  | nil => exact Nat.le_refl _
  | cons e es ih =>
    rw [each]
    cases m.one_does t e with
    | updates hid hupdate haccepts hone =>
      rw [run_bind_ok hone]
      exact ih (m.overOne e t)
    | creates make hid hcreate haccepts hone =>
      rw [run_bind_ok hone]
      exact Nat.le_trans (Nat.le_succ _) (ih (t.insert make.1 make.2))
    | raises ex haccepts hone => exact Nat.le_of_eq (by rw [run_bind_error hone])

/-- A row that is created takes a key. -/
theorem known_of_nextId (hm : m.Overwriting) {es : List ε} {t : Table ρ key}
    (hnext : (run (m.each es) t).2.nextId = t.nextId) :
    ∀ e ∈ m.written t es, m.id e ∈ m.ids t := by
  induction es generalizing t with
  | nil => exact fun _ h => absurd h List.not_mem_nil
  | cons e es ih =>
    rw [each] at hnext
    cases m.one_does t e with
    | updates hid hupdate haccepts hone =>
      rw [run_bind_ok hone] at hnext
      have hwritten := m.written_cons haccepts es
      have hrest := ih hnext
      rw [hm.written_overOne, hm.ids_overOne] at hrest
      rw [hwritten]
      exact List.forall_mem_cons.mpr ⟨hid, hrest⟩
    | creates make hid hcreate haccepts hone =>
      rw [run_bind_ok hone] at hnext
      have hle := m.nextId_le_each es (t.insert make.1 make.2)
      have hsucc : (t.insert make.1 make.2).nextId = t.nextId + 1 := rfl
      omega
    | raises ex haccepts hone =>
      have hwritten := m.written_nil haccepts es
      rw [hwritten]
      exact fun _ h => absurd h List.not_mem_nil

theorem length_overAll (m : Mirror ρ ε err key) (es : List ε) (t : Table ρ key) :
    (m.overAll es t).rows.length = t.rows.length := by
  induction es generalizing t with
  | nil => rfl
  | cons e es ih => exact (ih (m.overOne e t)).trans (List.length_map _)

/-- **A synchronisation leaves the table as it was exactly if nothing is deleted, created or
changed**, whether it raises or not. -/
theorem state_run_sync_eq_iff (hm : m.Overwriting) {es : List ε} {t : Table ρ key} :
    (run (m.sync es) t).2 = t ↔ m.Untouched es t := by
  let kept := t.keep fun row => !notIn (es.map m.id) (m.remoteId row)
  have hsync : run (m.sync es) t = run (m.each es) kept := rfl
  have hspared : kept = t ↔ ∀ row ∈ t.rows, notIn (es.map m.id) (m.remoteId row) = false := by
    refine Table.keep_eq_iff.trans (forall₂_congr fun row _ => ?_)
    rw [Bool.not_eq_true']
  constructor
  · intro h
    rw [hsync] at h
    have hnext : (run (m.each es) kept).2.nextId = kept.nextId := by
      rw [h]
      rfl
    have hknown := known_of_nextId hm hnext
    obtain ⟨hstate, hupdate⟩ := state_run_each_known hm hknown
    -- updates delete no row, so that none had been deleted before them
    have hlength : kept.rows.length = t.rows.length := by
      rw [← m.length_overAll (m.written kept es) kept, ← hstate, h]
    have hkept : kept = t :=
      Table.keep_eq_iff.mpr (List.length_filter_eq_length_iff.mp hlength)
    rw [hkept] at hknown hstate hupdate h
    exact ⟨hspared.mp hkept, hknown, (hm.overAll_eq_iff hupdate).mp (hstate.symm.trans h)⟩
  · rintro ⟨hrows, hknown, hstored⟩
    obtain ⟨hstate, hupdate⟩ := state_run_each_known hm hknown
    rw [hsync, hspared.mpr hrows, hstate]
    exact (hm.overAll_eq_iff hupdate).mpr hstored

end Mirror
