import BkPlatform.Lib.Effect
import BkPlatform.Lib.Table

/-!
# Mirroring a remote list

A table that mirrors a list kept elsewhere: rows whose remote id the list does not have
are deleted, and for each element the row with its remote id is updated, or one is
created.  Rows that refer to the table by its own key do not see which keys go.

## Main definitions

* `notIn` — `NOT IN` of SQL.
* `Mirror` — how a row is made from an element of the list.
* `Mirror.sync` — the synchronisation.
* `Mirror.Mirrors` — the remote ids of the table are those of the list.

## Main results

* `Mirror.keeps_each` — making rows deletes no key.
* `Mirror.hasKey_sync` — **a key stays unless its row is deleted as missing.**
* `Mirror.run_each` — the remote ids after the elements have been written.
* `Mirror.mirrors_sync_iff` — **exactly which tables mirror the list afterwards.**
-/

/-- `value NOT IN (ids)`: it is not known of a null, in a list with a null, and in an empty
list, which is written as one. -/
def notIn (ids : List (Option String)) : Option String → Bool
  | none => false
  | some value => ids != [] && ids.all fun id => id.any fun x => x != value

/-- How a row is made from an element: found by the remote id, then updated or created.
Either may raise. -/
structure Mirror (ρ ε err : Type) (key : ρ → ℕ) where
  remoteId : ρ → Option String
  id : ε → Option String
  /-- An update leaves the key as it is. -/
  update : ε → Except err { f : ρ → ρ // ∀ row, key (f row) = key row }
  /-- A row is created with the key it is given. -/
  create : ε → Except err { make : ℕ → ρ // ∀ n, key (make n) = n }

namespace Mirror

variable {ρ ε err : Type} {key : ρ → ℕ}

/-- An update of the one row with this key. -/
def put (row : ρ) (f : { f : ρ → ρ // ∀ row, key (f row) = key row }) (t : Table ρ key) :
    Table ρ key :=
  t.modify (fun r => if key r = key row then f.1 r else r) fun r => by
    by_cases h : key r = key row
    · rw [if_pos h, f.2]
    · rw [if_neg h]

/-- One element. -/
def one (m : Mirror ρ ε err key) (e : ε) : Eff err (Table ρ key) Unit := fun t =>
  match t.rows.find? fun r => m.remoteId r == m.id e with
  | some row =>
    match m.update e with
    | .ok f => (.ok (), put row f t)
    | .error ex => (.error ex, t)
  | none =>
    match m.create e with
    | .ok make => (.ok (), t.insert make.1 make.2)
    | .error ex => (.error ex, t)

/-- The elements in their order. -/
def each (m : Mirror ρ ε err key) : List ε → Eff err (Table ρ key) Unit
  | [] => pure ()
  | e :: es => do
    m.one e
    m.each es

/-- Delete what is missing from the list, then update or create. -/
def sync (m : Mirror ρ ε err key) (es : List ε) : Eff err (Table ρ key) Unit := do
  Eff.modify fun t => t.keep fun row => !notIn (es.map m.id) (m.remoteId row)
  m.each es

open Eff

variable (m : Mirror ρ ε err key)

/-- There is a row with this key. -/
def HasKey (k : ℕ) (t : Table ρ key) : Prop := ∃ row ∈ t.rows, key row = k

theorem hasKey_put {k : ℕ} {t : Table ρ key} (h : HasKey k t) (row : ρ)
    (f : { f : ρ → ρ // ∀ row, key (f row) = key row }) : HasKey k (put row f t) := by
  obtain ⟨old, hold, hkey⟩ := h
  refine ⟨if key old = key row then f.1 old else old, List.mem_map.mpr ⟨old, hold, rfl⟩, ?_⟩
  by_cases hsame : key old = key row
  · rw [if_pos hsame, f.2, hkey]
  · rw [if_neg hsame, hkey]

theorem keeps_one (e : ε) (k : ℕ) : Keeps (HasKey k) (m.one e) := by
  refine Keeps.of_state fun t ht => ?_
  unfold run one
  cases t.rows.find? fun r => m.remoteId r == m.id e with
  | some row =>
    cases m.update e with
    | ok f => exact hasKey_put ht row f
    | error ex => exact ht
  | none =>
    cases m.create e with
    | error ex => exact ht
    | ok make =>
      obtain ⟨row, hrow, hkey⟩ := ht
      exact ⟨row, List.mem_append_left _ hrow, hkey⟩

theorem keeps_each (es : List ε) (k : ℕ) : Keeps (HasKey k) (m.each es) := by
  induction es with
  | nil => exact Keeps.pure
  | cons e es ih => exact Keeps.bind (m.keeps_one e k) fun _ => ih

/-- **A key stays unless its row is deleted as missing from the list.** -/
theorem hasKey_sync {es : List ε} {t : Table ρ key} {row : ρ} (hrow : row ∈ t.rows)
    (hlisted : notIn (es.map m.id) (m.remoteId row) = false) :
    HasKey (key row) (run (m.sync es) t).2 := by
  have hstays : row ∈ (t.keep fun r => !notIn (es.map m.id) (m.remoteId r)).rows :=
    Table.mem_keep.mpr ⟨hrow, by rw [hlisted]; rfl⟩
  exact (m.keeps_each es (key row)).state ⟨row, hstays, rfl⟩

/-! ### The remote ids -/

/-- An update leaves the remote id as it is, and a new row has that of its element. -/
structure Lawful : Prop where
  update : ∀ e f, m.update e = .ok f → ∀ row, m.remoteId (f.1 row) = m.remoteId row
  create : ∀ e make, m.create e = .ok make → ∀ n, m.remoteId (make.1 n) = m.id e

/-- The remote ids of a table. -/
def ids (t : Table ρ key) : List (Option String) := t.rows.map m.remoteId

/-- The element can be written: its row can be updated, or created if there is none. -/
def Writable (t : Table ρ key) (e : ε) : Prop :=
  (m.id e ∈ m.ids t → ∃ f, m.update e = .ok f) ∧
    (m.id e ∉ m.ids t → ∃ make, m.create e = .ok make)

/-- The remote ids of the table are those of the list, each once. -/
structure Mirrors (listed : List (Option String)) (t : Table ρ key) : Prop where
  same : ∀ i, i ∈ m.ids t ↔ i ∈ listed
  once : (m.ids t).Nodup

variable {m}

theorem find_of_mem {t : Table ρ key} {e : ε} (h : m.id e ∈ m.ids t) :
    ∃ row, t.rows.find? (fun r => m.remoteId r == m.id e) = some row := by
  obtain ⟨row, hrow, hid⟩ := List.mem_map.mp h
  refine Option.isSome_iff_exists.mp (List.find?_isSome.mpr ⟨row, hrow, ?_⟩)
  exact beq_iff_eq.mpr hid

theorem find_of_not_mem {t : Table ρ key} {e : ε} (h : m.id e ∉ m.ids t) :
    t.rows.find? (fun r => m.remoteId r == m.id e) = none := by
  refine List.find?_eq_none.mpr fun row hrow hid => ?_
  exact h (List.mem_map.mpr ⟨row, hrow, beq_iff_eq.mp hid⟩)

theorem ids_put (hm : m.Lawful) {e : ε} {f : { f : ρ → ρ // ∀ row, key (f row) = key row }}
    (hf : m.update e = .ok f) (row : ρ) (t : Table ρ key) : m.ids (put row f t) = m.ids t := by
  unfold ids put Table.modify
  rw [List.map_map]
  refine List.map_congr_left fun r _ => ?_
  show m.remoteId (if key r = key row then f.1 r else r) = m.remoteId r
  by_cases hkey : key r = key row
  · rw [if_pos hkey, hm.update e f hf]
  · rw [if_neg hkey]

/-- **One element**: it is written if it can be, and its id is there afterwards. -/
theorem run_one (hm : m.Lawful) (t : Table ρ key) (e : ε) :
    (m.Writable t e ∧ ∃ t', run (m.one e) t = (.ok (), t') ∧
        m.ids t' = m.ids t ++ [m.id e].filter (fun i => i ∉ m.ids t)) ∨
      ¬ m.Writable t e ∧ ∃ ex, run (m.one e) t = (.error ex, t) := by
  by_cases hmem : m.id e ∈ m.ids t
  · obtain ⟨row, hrow⟩ := find_of_mem hmem
    cases hupdate : m.update e with
    | ok f =>
      refine Or.inl ⟨⟨fun _ => ⟨f, hupdate⟩, fun h => absurd hmem h⟩, put row f t, ?_, ?_⟩
      · simp [run, one, hrow, hupdate]
      · rw [ids_put hm hupdate, List.filter_singleton]
        simp [hmem]
    | error ex =>
      refine Or.inr ⟨fun h => ?_, ex, by simp [run, one, hrow, hupdate]⟩
      obtain ⟨f, hf⟩ := h.1 hmem
      rw [hupdate] at hf
      simp at hf
  · have hnone := find_of_not_mem hmem
    cases hcreate : m.create e with
    | ok make =>
      refine Or.inl ⟨⟨fun h => absurd h hmem, fun _ => ⟨make, hcreate⟩⟩,
        t.insert make.1 make.2, ?_, ?_⟩
      · simp [run, one, hnone, hcreate]
      · have hnew : m.ids (t.insert make.1 make.2) = m.ids t ++ [m.id e] := by
          simp [ids, Table.insert, hm.create e make hcreate]
        rw [hnew, List.filter_singleton]
        simp [hmem]
    | error ex =>
      refine Or.inr ⟨fun h => ?_, ex, by simp [run, one, hnone, hcreate]⟩
      obtain ⟨make, hmake⟩ := h.2 hmem
      rw [hcreate] at hmake
      simp at hmake

/-- **The elements one after the other**: all of them can be written, and the ids that were
missing are added in their order; or one cannot, and the synchronisation raises there. -/
theorem run_each (hm : m.Lawful) {es : List ε} (hdistinct : (es.map m.id).Nodup)
    (t : Table ρ key) :
    ((∀ e ∈ es, m.Writable t e) ∧ ∃ t', run (m.each es) t = (.ok (), t') ∧
        m.ids t' = m.ids t ++ (es.map m.id).filter (fun i => i ∉ m.ids t)) ∨
      (¬ ∀ e ∈ es, m.Writable t e) ∧ ∃ ex t', run (m.each es) t = (.error ex, t') := by
  induction es generalizing t with
  | nil => exact Or.inl ⟨fun _ h => absurd h List.not_mem_nil, t, rfl, by simp⟩
  | cons e es ih =>
    rw [List.map_cons, List.nodup_cons] at hdistinct
    obtain ⟨hnew, hrest⟩ := hdistinct
    unfold each
    rcases run_one hm t e with ⟨hwritable, t₁, hrun, hids⟩ | ⟨hnot, ex, hrun⟩
    · -- the other elements have other ids, and find what they would have found before
      have hsame : ∀ i ∈ es.map m.id, i ∈ m.ids t₁ ↔ i ∈ m.ids t := by
        intro i hi
        have hne : i ≠ m.id e := fun heq => hnew (heq ▸ hi)
        rw [hids, List.mem_append]
        simp [hne]
      have hother : ∀ e' ∈ es, m.Writable t₁ e' ↔ m.Writable t e' := by
        intro e' he'
        rw [Writable, Writable, hsame _ (List.mem_map_of_mem he')]
      have hall : (∀ e' ∈ e :: es, m.Writable t e') ↔ ∀ e' ∈ es, m.Writable t₁ e' := by
        rw [List.forall_mem_cons]
        exact ⟨fun h e' he' => (hother e' he').mpr (h.2 e' he'),
          fun h => ⟨hwritable, fun e' he' => (hother e' he').mp (h e' he')⟩⟩
      rw [hall, run_bind_ok hrun]
      rcases ih hrest t₁ with ⟨hok, t', hrun', hids'⟩ | ⟨hnot, hraise⟩
      · refine Or.inl ⟨hok, t', hrun', ?_⟩
        have hfilter : (es.map m.id).filter (fun i => i ∉ m.ids t₁) =
            (es.map m.id).filter (fun i => i ∉ m.ids t) := by
          refine List.filter_congr fun i hi => ?_
          rw [decide_eq_decide, hsame i hi]
        rw [hids', hfilter, hids, List.append_assoc, ← List.filter_append]
        rfl
      · exact Or.inr ⟨hnot, hraise⟩
    · refine Or.inr ⟨fun h => hnot (h e List.mem_cons_self), ex, t, ?_⟩
      rw [run_bind_error hrun]

/-! ### What is mirrored -/

/-- The row is kept: it has no remote id, or one of the list. -/
theorem notIn_eq_false {listed : List (Option String)} (hsome : ∀ i ∈ listed, i.isSome = true)
    (hne : listed ≠ []) {i : Option String} :
    notIn listed i = false ↔ i = none ∨ i ∈ listed := by
  cases i with
  | none => simp [notIn]
  | some value =>
    have hlisted : (∃ i ∈ listed, (i.any fun x => x != value) = false) ↔ some value ∈ listed := by
      constructor
      · rintro ⟨i, hi, hany⟩
        obtain ⟨x, rfl⟩ := Option.isSome_iff_exists.mp (hsome i hi)
        obtain rfl : x = value := by simpa using hany
        exact hi
      · exact fun h => ⟨some value, h, by simp⟩
    rw [← hlisted]
    simp [notIn, hne]

/-- Adding what is missing repeats nothing. -/
theorem nodup_append_missing {α : Type} [BEq α] [LawfulBEq α] {xs ys : List α} (hys : ys.Nodup) :
    (xs ++ ys.filter fun y => y ∉ xs).Nodup ↔ xs.Nodup := by
  rw [List.nodup_append]
  refine ⟨fun h => h.1, fun h => ⟨h, hys.filter _, fun x hx y hy => ?_⟩⟩
  rintro rfl
  exact of_decide_eq_true (List.mem_filter.mp hy).2 hx

/-- The table mirrors the list if it had a row of each id at most once, and none without. -/
theorem mirrors_iff {listed : List (Option String)} (hsome : ∀ i ∈ listed, i.isSome = true)
    (hdistinct : listed.Nodup) {t kept t' : Table ρ key}
    (hkeep : ∀ i, (!notIn listed i) = true ↔ i = none ∨ i ∈ listed)
    (hkept : m.ids kept = (m.ids t).filter fun i => !notIn listed i)
    (ht' : m.ids t' = m.ids kept ++ listed.filter (fun i => i ∉ m.ids kept)) :
    m.Mirrors listed t' ↔ none ∉ m.ids t ∧ ∀ i ∈ listed, (m.ids t).count i ≤ 1 := by
  have hnone : none ∉ listed := fun h => by simpa using hsome none h
  have hmem : ∀ i, i ∈ m.ids kept ↔ i ∈ m.ids t ∧ (i = none ∨ i ∈ listed) := by
    intro i
    rw [hkept, List.mem_filter, hkeep]
  have hcount : ∀ i ∈ listed, (m.ids kept).count i = (m.ids t).count i := by
    intro i hi
    have hstays := (hkeep i).mpr (Or.inr hi)
    rw [hkept]
    exact List.count_filter hstays
  constructor
  · intro h
    have hgone : none ∉ m.ids t := by
      intro hin
      refine hnone ((h.same none).mp ?_)
      rw [ht', List.mem_append]
      exact Or.inl ((hmem none).mpr ⟨hin, Or.inl rfl⟩)
    refine ⟨hgone, fun i hi => ?_⟩
    have honce := h.once
    rw [ht', nodup_append_missing hdistinct] at honce
    rw [← hcount i hi]
    exact List.nodup_iff_count_le_one.mp honce i
  · rintro ⟨hgone, hfew⟩
    constructor
    · intro i
      rw [ht', List.mem_append, hmem, List.mem_filter]
      constructor
      · rintro (⟨hin, rfl | hi⟩ | ⟨hi, -⟩)
        · exact absurd hin hgone
        · exact hi
        · exact hi
      · intro hi
        by_cases hin : i ∈ m.ids kept
        · exact Or.inl ((hmem i).mp hin)
        · exact Or.inr ⟨hi, by simpa using hin⟩
    · rw [ht', nodup_append_missing hdistinct]
      refine List.nodup_iff_count_le_one.mpr fun i => ?_
      by_cases hin : i ∈ m.ids kept
      · obtain ⟨hold, rfl | hi⟩ := (hmem i).mp hin
        · exact absurd hold hgone
        · rw [hcount i hi]
          exact hfew i hi
      · rw [List.count_eq_zero_of_not_mem hin]
        exact Nat.zero_le 1

/-- **The table mirrors the list after a synchronisation exactly if every element can be
written, no row is without a remote id, and no two rows share one of the list**: the
first is never deleted, and of the others both stay. -/
theorem mirrors_sync_iff (hm : m.Lawful) {es : List ε} (hne : es ≠ [])
    (hsome : ∀ e ∈ es, (m.id e).isSome = true) (hdistinct : (es.map m.id).Nodup)
    (t : Table ρ key) :
    (∃ t', run (m.sync es) t = (.ok (), t') ∧ m.Mirrors (es.map m.id) t') ↔
      (∀ e ∈ es, m.Writable t e) ∧ none ∉ m.ids t ∧
        ∀ e ∈ es, (m.ids t).count (m.id e) ≤ 1 := by
  let kept := t.keep fun row => !notIn (es.map m.id) (m.remoteId row)
  have hlisted : ∀ i ∈ es.map m.id, i.isSome = true := by
    intro i hi
    obtain ⟨e, he, rfl⟩ := List.mem_map.mp hi
    exact hsome e he
  have hkept : ∀ i, (!notIn (es.map m.id) i) = true ↔ i = none ∨ i ∈ es.map m.id := by
    intro i
    rw [Bool.not_eq_true', notIn_eq_false hlisted (by simpa using hne)]
  have hids : m.ids kept = (m.ids t).filter fun i => !notIn (es.map m.id) i := by
    simp only [ids, kept, Table.keep, List.filter_map]
    rfl
  have hmem : ∀ i, i ∈ m.ids kept ↔ i ∈ m.ids t ∧ (i = none ∨ i ∈ es.map m.id) := by
    intro i
    rw [hids, List.mem_filter, hkept]
  have hwritable : (∀ e ∈ es, m.Writable kept e) ↔ ∀ e ∈ es, m.Writable t e := by
    refine forall₂_congr fun e he => ?_
    have hfound : m.id e ∈ m.ids kept ↔ m.id e ∈ m.ids t := by
      rw [hmem]
      exact and_iff_left (Or.inr (List.mem_map_of_mem he))
    rw [Writable, Writable, hfound]
  have hsync : run (m.sync es) t = run (m.each es) kept := rfl
  rw [hsync, ← hwritable]
  rcases run_each hm hdistinct kept with ⟨hok, t', hrun, hids'⟩ | ⟨hnot, ex, t', hrun⟩
  · have hmirrors := mirrors_iff hlisted hdistinct hkept hids hids'
    have hcounts : (∀ e ∈ es, (m.ids t).count (m.id e) ≤ 1) ↔
        ∀ i ∈ es.map m.id, (m.ids t).count i ≤ 1 := by
      rw [List.forall_mem_map]
    rw [hcounts, ← hmirrors]
    constructor
    · rintro ⟨t'', hrun'', h⟩
      obtain rfl : t' = t'' := (Prod.mk.inj (hrun.symm.trans hrun'')).2
      exact ⟨hok, h⟩
    · exact fun h => ⟨t', hrun, h.2⟩
  · refine iff_of_false ?_ fun h => hnot h.1
    rintro ⟨t'', hrun', -⟩
    rw [hrun] at hrun'
    simp at hrun'

end Mirror
