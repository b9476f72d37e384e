import BkPlatform.Lib.Run
import Mathlib.Data.List.Nodup
import Mathlib.Logic.Function.Basic

/-!
# Check, then insert, without a lock

Every party brings a key to a store.  It *checks* that the store does not have the
key, and later *inserts* it; the store itself takes any key.  Between the two steps
the party holds its key, and nobody sees that.

The keys stay distinct in a schedule in which nobody checks a key that another
party holds (`Lone`), and no weaker rule for the checks will do: a check that breaks
it can be followed by two insertions of one key (`not_nodup_of_overlap`).

## Main definitions

* `Phase`, `Store`, `Move`, `move` — the parties, the store and their steps.
* `Lone` — the condition on a check.
* `Distinct` — the invariant.

## Main results

* `nodup_of_lone` — **the keys are distinct in every run whose checks are lone.**
* `not_nodup_of_overlap` — after a check that is not, they may be so no longer.
-/

namespace CheckThenInsert

/-- Where a party stands. -/
inductive Phase (κ : Type*)
  /-- The party has not checked yet. -/
  | idle
  /-- The party has not found its key, and has not inserted it yet. -/
  | holding (k : κ)
  /-- The party is finished. -/
  | done
  deriving DecidableEq, Repr

/-- The store and the parties. -/
structure Store (ι κ : Type*) where
  keys : List κ
  phase : ι → Phase κ

/-- One step. -/
inductive Move (ι κ : Type*)
  /-- A party looks for its key. -/
  | check (i : ι) (k : κ)
  /-- A party finishes without looking. -/
  | skip (i : ι)
  /-- A party inserts the key it holds. -/
  | insert (i : ι)

variable {ι κ : Type*} [DecidableEq ι] [DecidableEq κ]

/-- The step function. -/
def move (s : Store ι κ) : Move ι κ → Option (Store ι κ)
  | .check i k =>
    match s.phase i with
    | .idle => some { s with
        phase := Function.update s.phase i (if k ∈ s.keys then .done else .holding k) }
    | _ => none
  | .skip i =>
    match s.phase i with
    | .idle => some { s with phase := Function.update s.phase i .done }
    | _ => none
  | .insert i =>
    match s.phase i with
    | .holding k => some ⟨s.keys ++ [k], Function.update s.phase i .done⟩
    | _ => none

/-- A check that does not find its key is lone when no party holds the key. -/
def Lone (s : Store ι κ) : Move ι κ → Prop
  | .check _ k => k ∉ s.keys → ∀ j, s.phase j ≠ .holding k
  | _ => True

/-- What every state of a run of lone checks satisfies. -/
structure Distinct (s : Store ι κ) : Prop where
  nodup : s.keys.Nodup
  /-- A key that is held is not in the store. -/
  fresh : ∀ i k, s.phase i = .holding k → k ∉ s.keys
  /-- A key is held once. -/
  alone : ∀ i j k, s.phase i = .holding k → s.phase j = .holding k → i = j

omit [DecidableEq ι] [DecidableEq κ] in
/-- Before anybody has checked. -/
theorem distinct_of_idle {s : Store ι κ} (hkeys : s.keys.Nodup) (h : ∀ i, s.phase i = .idle) :
    Distinct s where
  nodup := hkeys
  fresh := fun i k hi => by rw [h i] at hi; cases hi
  alone := fun i _ k hi => by rw [h i] at hi; cases hi

omit [DecidableEq κ] in
/-- What a party holds after `i` has finished it held before, and it is not `i`. -/
theorem holding_of_done {phase : ι → Phase κ} {i j : ι} {k : κ}
    (h : Function.update phase i .done j = .holding k) : j ≠ i ∧ phase j = .holding k := by
  rcases eq_or_ne j i with rfl | hne
  · rw [Function.update_self] at h
    cases h
  · rw [Function.update_of_ne hne] at h
    exact ⟨hne, h⟩

omit [DecidableEq κ] in
/-- What a party holds after `i` has taken hold of a key. -/
theorem holding_of_hold {phase : ι → Phase κ} {i j : ι} {k l : κ}
    (h : Function.update phase i (.holding k) j = .holding l) :
    (j = i ∧ l = k) ∨ phase j = .holding l := by
  rcases eq_or_ne j i with rfl | hne
  · rw [Function.update_self] at h
    cases h
    exact Or.inl ⟨rfl, rfl⟩
  · rw [Function.update_of_ne hne] at h
    exact Or.inr h

omit [DecidableEq κ] in
/-- A party that finishes without an insertion. -/
theorem Distinct.done {s : Store ι κ} (h : Distinct s) (i : ι) :
    Distinct { s with phase := Function.update s.phase i .done } where
  nodup := h.nodup
  fresh := fun j k hj => h.fresh j k (holding_of_done hj).2
  alone := fun j l k hj hl => h.alone j l k (holding_of_done hj).2 (holding_of_done hl).2

omit [DecidableEq κ] in
/-- A lone check that does not find its key. -/
theorem Distinct.hold {s : Store ι κ} (h : Distinct s) (i : ι) {k : κ} (hnew : k ∉ s.keys)
    (hlone : ∀ j, s.phase j ≠ .holding k) :
    Distinct { s with phase := Function.update s.phase i (.holding k) } where
  nodup := h.nodup
  fresh := by
    intro j l hj
    rcases holding_of_hold hj with ⟨-, rfl⟩ | hold
    · exact hnew
    · exact h.fresh j l hold
  alone := by
    intro j l m hj hl
    rcases holding_of_hold hj with ⟨rfl, rfl⟩ | hj'
    · rcases holding_of_hold hl with ⟨rfl, -⟩ | hl'
      · rfl
      · exact absurd hl' (hlone l)
    · rcases holding_of_hold hl with ⟨rfl, rfl⟩ | hl'
      · exact absurd hj' (hlone j)
      · exact h.alone j l m hj' hl'

omit [DecidableEq κ] in
/-- An insertion of a key that is held. -/
theorem Distinct.insert {s : Store ι κ} (h : Distinct s) {i : ι} {k : κ}
    (hi : s.phase i = .holding k) :
    Distinct ⟨s.keys ++ [k], Function.update s.phase i .done⟩ where
  nodup := by
    rw [← List.concat_eq_append]
    exact h.nodup.concat (h.fresh i k hi)
  fresh := by
    intro j l hj hmem
    obtain ⟨hne, hold⟩ := holding_of_done hj
    rcases List.mem_append.mp hmem with hkey | hnew
    · exact h.fresh j l hold hkey
    · rw [List.mem_singleton.mp hnew] at hold
      exact hne (h.alone j i k hold hi)
  alone := fun j l k hj hl => h.alone j l k (holding_of_done hj).2 (holding_of_done hl).2

/-- Every step keeps the keys distinct, if its check is lone. -/
theorem Distinct.move {s t : Store ι κ} (h : Distinct s) {m : Move ι κ} (hm : Lone s m)
    (hstep : move s m = some t) : Distinct t := by
  cases m with
  | check i k =>
    simp only [CheckThenInsert.move] at hstep
    split at hstep
    · obtain rfl := Option.some.inj hstep
      by_cases hk : k ∈ s.keys
      · simpa [hk] using h.done i
      · simpa [hk] using h.hold i hk (hm hk)
    · cases hstep
  | skip i =>
    simp only [CheckThenInsert.move] at hstep
    split at hstep
    · obtain rfl := Option.some.inj hstep
      exact h.done i
    · cases hstep
  | insert i =>
    simp only [CheckThenInsert.move] at hstep
    split at hstep
    · next k hi =>
      obtain rfl := Option.some.inj hstep
      exact h.insert hi
    · cases hstep

/-- **The keys are distinct** in every run whose checks are lone. -/
theorem nodup_of_lone {s t : Store ι κ} {ms : List (Move ι κ)} (hkeys : s.keys.Nodup)
    (hidle : ∀ i, s.phase i = .idle) (hal : Run.Along CheckThenInsert.move Lone s ms)
    (hrun : Run.exec CheckThenInsert.move s ms = some t) : t.keys.Nodup := by
  have hdistinct : Distinct t :=
    Run.exec_inv_along (fun _ _ _ hs hm hstep => hs.move hm hstep)
      (distinct_of_idle hkeys hidle) hal hrun
  exact hdistinct.nodup

/-- **After a check that is not lone the keys may become equal**: both parties can insert. -/
theorem not_nodup_of_overlap {s : Store ι κ} {i j : ι} {k : κ} (hi : s.phase i = .idle)
    (hj : s.phase j = .holding k) (hnew : k ∉ s.keys) :
    ∃ t, Run.exec CheckThenInsert.move s [.check i k, .insert i, .insert j] = some t ∧
      ¬ t.keys.Nodup := by
  have hne : j ≠ i := by
    rintro rfl
    rw [hi] at hj
    cases hj
  refine ⟨⟨s.keys ++ [k] ++ [k], Function.update (Function.update (Function.update s.phase i
    (.holding k)) i .done) j .done⟩, ?_, fun hnodup => ?_⟩
  · simp [CheckThenInsert.move, hi, hnew, Function.update_of_ne hne, hj]
  · have hkey : k ∈ s.keys ++ [k] := List.mem_append_right _ (List.mem_singleton_self k)
    exact (List.nodup_append.mp hnodup).2.2 k hkey k (List.mem_singleton_self k) rfl

end CheckThenInsert
