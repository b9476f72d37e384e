import Mathlib.Data.Set.Basic

/-!
# Tokens that are used up

Tokens are minted with labels made from a counter, and every value of the counter makes a
label of its own.  A token that is presented is used up.  The ledger of such a system says
that the flag of a stored token tells its past: it is up exactly if the label has been
presented.  Tokens may also be thrown away; the counter goes on all the same, so no label
comes back.

## Main definitions

* `Kind` — what the tokens are, and how they are labelled.
* `Ledger` — the flags of the stored tokens agree with the labels presented so far.

## Main results

* `Ledger.mono`, `Ledger.mint`, `Ledger.present` — the rules: tokens are thrown away, minted
  and presented.
* `Ledger.unused_iff` — **a stored token is unused exactly if its label has never been
  presented.**
-/

namespace OneTime

variable {ρ κ : Type*}

/-- Tokens with a label and a flag, and the labels a counter makes. -/
structure Kind (ρ κ : Type*) where
  label : ρ → κ
  used : ρ → Bool
  name : ℕ → κ
  injective : Function.Injective name

/-- The stored tokens have labels made before, each one of its own, and the flag is up on
those whose labels have been presented; nothing has been presented that was not made. -/
structure Ledger (K : Kind ρ κ) (made : ℕ) (presented : Set κ) (stored : Set ρ) : Prop where
  named : ∀ token ∈ stored, ∃ k < made, K.label token = K.name k
  unique : ∀ token ∈ stored, ∀ token' ∈ stored, K.label token = K.label token' → token = token'
  flagged : ∀ token ∈ stored, K.used token = true ↔ K.label token ∈ presented
  known : ∀ label ∈ presented, ∃ k < made, label = K.name k

namespace Ledger

variable {K : Kind ρ κ} {made made' : ℕ} {presented presented' : Set κ} {stored stored' : Set ρ}

theorem empty : Ledger K made ∅ ∅ where
  named := fun _ h => absurd h (Set.notMem_empty _)
  unique := fun _ h => absurd h (Set.notMem_empty _)
  flagged := fun _ h => absurd h (Set.notMem_empty _)
  known := fun _ h => absurd h (Set.notMem_empty _)

/-- Labels are made, and tokens thrown away. -/
theorem mono (h : Ledger K made presented stored) (hmade : made ≤ made')
    (hstored : stored' ⊆ stored) : Ledger K made' presented stored' where
  named := by
    intro token htoken
    obtain ⟨k, hk, hlabel⟩ := h.named token (hstored htoken)
    exact ⟨k, Nat.lt_of_lt_of_le hk hmade, hlabel⟩
  unique := fun token htoken token' htoken' =>
    h.unique token (hstored htoken) token' (hstored htoken')
  flagged := fun token htoken => h.flagged token (hstored htoken)
  known := by
    intro label hlabel
    obtain ⟨k, hk, hname⟩ := h.known label hlabel
    exact ⟨k, Nat.lt_of_lt_of_le hk hmade, hname⟩

/-- The next label is not one that was made before. -/
theorem name_ne {k : ℕ} (hk : k < made) : K.name k ≠ K.name made :=
  fun heq => Nat.ne_of_lt hk (K.injective heq)

/-- A token is minted with the next label. -/
theorem mint (h : Ledger K made presented stored) {new : ρ} (hlabel : K.label new = K.name made)
    (hunused : K.used new = false) (hstored : stored' ⊆ insert new stored) :
    Ledger K (made + 1) presented stored' := by
  have hother : ∀ token ∈ stored, K.label token ≠ K.label new := by
    intro token htoken heq
    obtain ⟨k, hk, hname⟩ := h.named token htoken
    exact name_ne hk (hname.symm.trans (heq.trans hlabel))
  have hall : Ledger K (made + 1) presented (insert new stored) := by
    refine ⟨fun token htoken => ?_, fun token htoken token' htoken' heq => ?_,
      fun token htoken => ?_, (h.mono (Nat.le_succ made) subset_rfl).known⟩
    · rcases htoken with rfl | hold
      · exact ⟨made, Nat.lt_succ_self made, hlabel⟩
      · exact (h.mono (Nat.le_succ made) subset_rfl).named token hold
    · rcases htoken with rfl | hold
      · rcases htoken' with rfl | hold'
        · rfl
        · exact absurd heq.symm (hother token' hold')
      · rcases htoken' with rfl | hold'
        · exact absurd heq (hother token hold)
        · exact h.unique token hold token' hold' heq
    · rcases htoken with rfl | hold
      · rw [hunused, hlabel]
        refine iff_of_false (by decide) fun hpresented => ?_
        obtain ⟨k, hk, hname⟩ := h.known _ hpresented
        exact name_ne hk hname.symm
      · exact h.flagged token hold
  exact hall.mono (Nat.le_refl _) hstored

/-- A stored token is presented: its flag goes up, the others are left as they are. -/
theorem present (h : Ledger K made presented stored) {token : ρ} (htoken : token ∈ stored)
    {f : ρ → ρ} (hlabel : ∀ t ∈ stored, K.label (f t) = K.label t)
    (hused : ∀ t ∈ stored, K.used (f t) = true ↔ K.used t = true ∨ t = token)
    (hstored : stored' ⊆ Set.image f stored)
    (hpresented : ∀ label, label ∈ presented' ↔ label ∈ presented ∨ label = K.label token) :
    Ledger K made presented' stored' := by
  refine ⟨fun t ht => ?_, fun t ht t' ht' heq => ?_, fun t ht => ?_, fun label hmem => ?_⟩
  · obtain ⟨old, hold, rfl⟩ := hstored ht
    rw [hlabel old hold]
    exact h.named old hold
  · obtain ⟨old, hold, rfl⟩ := hstored ht
    obtain ⟨old', hold', rfl⟩ := hstored ht'
    rw [hlabel old hold, hlabel old' hold'] at heq
    rw [h.unique old hold old' hold' heq]
  · obtain ⟨old, hold, rfl⟩ := hstored ht
    have hsame : old = token ↔ K.label old = K.label token :=
      ⟨congrArg K.label, h.unique old hold token htoken⟩
    rw [hused old hold, hlabel old hold, hpresented, h.flagged old hold, hsame]
  · rcases (hpresented label).mp hmem with hold | rfl
    · exact h.known label hold
    · exact h.named token htoken

/-- **A stored token is unused exactly if its label has never been presented.** -/
theorem unused_iff (h : Ledger K made presented stored) {token : ρ} (htoken : token ∈ stored) :
    K.used token = false ↔ K.label token ∉ presented := by
  rw [← h.flagged token htoken, Bool.not_eq_true]

end Ledger

end OneTime
