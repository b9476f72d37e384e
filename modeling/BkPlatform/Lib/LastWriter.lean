import Mathlib.Data.List.Induction
import Mathlib.Data.List.Nodup
import Mathlib.Data.Nat.Notation

/-!
# Stores in which the last writer of a key wins

A store keeps its entries in the order in which they were put there, and putting an entry drops
the one that has its key.  After any writes the store holds, of each key, the entry
written last, and the entries stand in the order of these last writes.

## Main definitions

* `put key store a` — one write.
* `IsLast key written i` — no later write has the key of the `i`-th one.
* `HoldsLast key written store times` — the store holds what was written at these times, the
  times of the last writes, in order.

## Main results

* `exists_holdsLast` — **the store holds what was written last under each key.**
* `nodup_foldl_put`, `mem_keys_foldl_put` — it holds one entry for each key written.
-/

namespace LastWriter

variable {α κ : Type*} [DecidableEq κ] {key : α → κ}

variable (key) in
/-- Put an entry into the store, in place of the one with its key. -/
def put (store : List α) (a : α) : List α := (store.filter fun b => key b ≠ key a) ++ [a]

variable (key) in
/-- The `i`-th write is the last one of its key. -/
def IsLast (written : List α) (i : ℕ) : Prop :=
  ∃ a, written[i]? = some a ∧ ∀ j b, i < j → written[j]? = some b → key b ≠ key a

variable (key) in
/-- The times of the last writes, and the entries that were written then. -/
structure HoldsLast (written store : List α) (times : List ℕ) : Prop where
  increasing : times.Pairwise (· < ·)
  mem_iff : ∀ i, i ∈ times ↔ IsLast key written i
  entries : store.map some = times.map fun i => written[i]?

/-! ### One more write -/

omit [DecidableEq κ] in
theorem IsLast.lt {written : List α} {i : ℕ} (h : IsLast key written i) : i < written.length := by
  obtain ⟨a, ha, -⟩ := h
  exact (List.getElem?_eq_some_iff.mp ha).1

theorem le_length_of_getElem?_snoc {written : List α} {a b : α} {j : ℕ}
    (h : (written ++ [a])[j]? = some b) : j ≤ written.length := by
  have hlt : j < (written ++ [a]).length := (List.getElem?_eq_some_iff.mp h).1
  rw [List.length_append, List.length_singleton] at hlt
  omega

omit [DecidableEq κ] in
/-- The last write of all is the last one of its key. -/
theorem isLast_length (written : List α) (a : α) : IsLast key (written ++ [a]) written.length := by
  refine ⟨a, by simp, fun j b hj hb => ?_⟩
  have hle := le_length_of_getElem?_snoc hb
  omega

omit [DecidableEq κ] in
/-- An earlier write is the last one of its key if it was so before and the new one has
another key. -/
theorem isLast_snoc {written : List α} {a : α} {i : ℕ} (hi : i < written.length) :
    IsLast key (written ++ [a]) i ↔
      IsLast key written i ∧ ∀ b, written[i]? = some b → key b ≠ key a := by
  have hold : ∀ j, j < written.length → (written ++ [a])[j]? = written[j]? :=
    fun j hj => List.getElem?_append_left hj
  constructor
  · rintro ⟨b, hb, hlater⟩
    rw [hold i hi] at hb
    refine ⟨⟨b, hb, fun j c hj hc => ?_⟩, fun c hc => ?_⟩
    · have hjlt : j < written.length := (List.getElem?_eq_some_iff.mp hc).1
      exact hlater j c hj (by rw [hold j hjlt, hc])
    · obtain rfl : b = c := Option.some.inj (hb.symm.trans hc)
      exact (hlater written.length a hi (by simp)).symm
  · rintro ⟨⟨b, hb, hlater⟩, hnew⟩
    refine ⟨b, by rw [hold i hi, hb], fun j c hj hc => ?_⟩
    rcases Nat.lt_or_ge j written.length with hjlt | hjge
    · rw [hold j hjlt] at hc
      exact hlater j c hj hc
    · -- the write in question is the new one
      have hle := le_length_of_getElem?_snoc hc
      obtain rfl : j = written.length := by omega
      obtain rfl : a = c := by simpa using hc
      exact (hnew b hb).symm

/-- One more write, with its time. -/
theorem HoldsLast.snoc {written store : List α} {times : List ℕ}
    (h : HoldsLast key written store times) (a : α) :
    HoldsLast key (written ++ [a]) (put key store a)
      ((times.filter fun i => (written[i]?).all fun b => key b ≠ key a) ++ [written.length]) where
  increasing := by
    rw [List.pairwise_append]
    refine ⟨h.increasing.filter _, List.pairwise_singleton _ _, fun i hi j hj => ?_⟩
    rw [List.mem_singleton] at hj
    rw [hj]
    exact ((h.mem_iff i).mp (List.mem_filter.mp hi).1).lt
  mem_iff := by
    intro i
    rw [List.mem_append, List.mem_filter, List.mem_singleton, h.mem_iff]
    rcases Nat.lt_trichotomy i written.length with hlt | rfl | hgt
    · rw [isLast_snoc hlt]
      obtain ⟨b, hb⟩ : ∃ b, written[i]? = some b := ⟨_, List.getElem?_eq_getElem hlt⟩
      simp [hb, Nat.ne_of_lt hlt]
    · exact iff_of_true (Or.inr rfl) (isLast_length written a)
    · refine iff_of_false ?_ fun ⟨b, hb, _⟩ => ?_
      · rintro (⟨hlast, -⟩ | heq)
        · have hlt := hlast.lt
          omega
        · omega
      · have hle := le_length_of_getElem?_snoc hb
        omega
  entries := by
    let other : Option α → Bool := fun o => o.all fun b => key b ≠ key a
    have hstore : (store.filter fun b => key b ≠ key a).map some =
        (times.filter fun i => other written[i]?).map fun i => written[i]? := by
      calc (store.filter fun b => key b ≠ key a).map some
          = (store.map some).filter other := by rw [List.filter_map]; rfl
        _ = (times.map fun i => written[i]?).filter other := by rw [h.entries]
        _ = _ := by rw [List.filter_map]; rfl
    have hold : (times.filter fun i => other written[i]?).map (fun i => (written ++ [a])[i]?) =
        (times.filter fun i => other written[i]?).map fun i => written[i]? := by
      apply List.map_congr_left
      intro i hi
      exact List.getElem?_append_left ((h.mem_iff i).mp (List.mem_filter.mp hi).1).lt
    rw [put, List.map_append, List.map_append, hstore, hold]
    simp

/-! ### All writes -/

/-- **After any writes the store holds what was written last under each key**, in the order of
these writes. -/
theorem exists_holdsLast (written : List α) :
    ∃ times, HoldsLast key written (written.foldl (put key) []) times := by
  induction written using List.reverseRecOn with
  | nil =>
    refine ⟨[], List.Pairwise.nil, fun i => ?_, rfl⟩
    exact iff_of_false List.not_mem_nil fun hlast => absurd hlast.lt (Nat.not_lt_zero i)
  | append_singleton written a ih =>
    obtain ⟨times, h⟩ := ih
    rw [List.foldl_append]
    exact ⟨_, h.snoc a⟩

/-- The keys in the store after a write. -/
theorem mem_keys_put {store : List α} {a : α} {k : κ} :
    k ∈ (put key store a).map key ↔ k ∈ store.map key ∨ k = key a := by
  rw [put, List.map_append, List.mem_append, List.map_singleton, List.mem_singleton]
  constructor
  · rintro (hold | hnew)
    · obtain ⟨b, hb, rfl⟩ := List.mem_map.mp hold
      exact Or.inl (List.mem_map_of_mem (List.mem_filter.mp hb).1)
    · exact Or.inr hnew
  · rintro (hold | hnew)
    · obtain ⟨b, hb, rfl⟩ := List.mem_map.mp hold
      by_cases hkey : key b = key a
      · exact Or.inr hkey
      · exact Or.inl (List.mem_map_of_mem (List.mem_filter.mpr ⟨hb, by simpa using hkey⟩))
    · exact Or.inr hnew

/-- The keys in the store are those that have been written. -/
theorem mem_keys_foldl_put (written : List α) (k : κ) :
    k ∈ (written.foldl (put key) []).map key ↔ k ∈ written.map key := by
  induction written using List.reverseRecOn with
  | nil => exact Iff.rfl
  | append_singleton written a ih =>
    rw [List.foldl_append, List.foldl_cons, List.foldl_nil, mem_keys_put, ih, List.map_append,
      List.mem_append, List.map_singleton, List.mem_singleton]

/-- No key is in the store twice. -/
theorem nodup_foldl_put (written : List α) : ((written.foldl (put key) []).map key).Nodup := by
  induction written using List.reverseRecOn with
  | nil => exact List.nodup_nil
  | append_singleton written a ih =>
    rw [List.foldl_append, List.foldl_cons, List.foldl_nil, put, List.map_append,
      List.map_singleton, List.nodup_append]
    refine ⟨ih.sublist (List.filter_sublist.map key), List.nodup_singleton _, ?_⟩
    intro k hk k' hk'
    obtain ⟨b, hb, rfl⟩ := List.mem_map.mp hk
    obtain rfl := List.mem_singleton.mp hk'
    exact of_decide_eq_true (List.mem_filter.mp hb).2

end LastWriter
