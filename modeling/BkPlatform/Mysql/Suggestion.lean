import Mathlib.Data.Int.Notation
import Mathlib.Order.Basic

/-!
# How many SQL nodes are suggested

The management node counts the connections of the SQL nodes and suggests how many nodes there
should be: one more when the last node is nearly used up, and as many as the connections need
when there are many free ones.  The two thresholds, fewer than 50 and more than 270 free
connections, are the same for every size of a cluster and of a node.

## Main definitions

* `floorDiv`, `suggestedNode` — the formula of `zabbix_sender.py`.
* `suggestion` — its value where no division by zero is possible.

## Main results

* `suggestedNode_eq` — the formula, for nodes that allow connections.
* `notLowered_iff` — **exactly when more load does not lower the suggestion.**
* `stable_iff` — **exactly when a suggested node is not given up at once.**
-/

namespace BkPlatform.Mysql

/-- The exceptions of the scripts. -/
inductive PyError
  | zeroDivisionError
  | typeError
  | indexError
  | syntaxError
  deriving DecidableEq, Repr

/-- `a / b` of two integers. -/
def floorDiv (a b : ℤ) : Except PyError ℤ :=
  if b = 0 then .error .zeroDivisionError else .ok (a.fdiv b)

/-- `suggested_node`, for some nodes with that many threads and connections in all. -/
def suggestedNode (node threadsConnected maxConnections : ℤ) : Except PyError ℤ := do
  let suggested ←
    if node > 0 then do
      let perNode ← floorDiv maxConnections node
      let thOverMax ← floorDiv threadsConnected perNode
      let suggest := 1 + thOverMax
      let temp := maxConnections - threadsConnected
      pure (if node = suggest ∧ temp < 50 then 2 + thOverMax
        else if temp > 270 then 1 + thOverMax
        else node)
    else pure 2
  pure (if suggested < 2 then 2 else suggested)

/-! ### Nodes that allow connections -/

section Suggestion

variable {node m t : ℕ}

/-- The three branches, for the load in nodes and the connections that are free. -/
def branch (node load free : ℕ) : ℕ :=
  if node = load + 1 ∧ free < 50 then load + 2 else if 270 < free then load + 1 else node

/-- The suggestion for a load of `t` on nodes that allow `m` connections each. -/
def suggestion (node m t : ℕ) : ℕ := max 2 (branch node (t / m) (node * m - t))

/-- **The formula, for nodes that allow connections**: no division by zero, and the branch taken
by the load in nodes and the free connections. -/
theorem suggestedNode_eq (hnode : 1 ≤ node) (hm : 1 ≤ m) (ht : t ≤ node * m) :
    suggestedNode node t (node * m : ℕ) = .ok (suggestion node m t : ℕ) := by
  have hpos : (0 : ℤ) < node := by omega
  have hperNode : floorDiv ((node * m : ℕ) : ℤ) node = .ok (m : ℤ) := by
    rw [floorDiv, if_neg (by omega), Int.fdiv_eq_ediv_of_nonneg _ (by omega), Int.natCast_mul,
      Int.mul_ediv_cancel_left _ (by omega)]
  have hload : floorDiv (t : ℤ) m = .ok ((t / m : ℕ) : ℤ) := by
    rw [floorDiv, if_neg (by omega), Int.fdiv_eq_ediv_of_nonneg _ (by omega), Int.natCast_ediv]
  have hfree : ((node * m : ℕ) : ℤ) - t = ((node * m - t : ℕ) : ℤ) := by omega
  have hbranch : ∀ q free : ℕ, (if (node : ℤ) = 1 + q ∧ (free : ℤ) < 50 then 2 + (q : ℤ)
      else if (free : ℤ) > 270 then 1 + (q : ℤ) else node) = (branch node q free : ℕ) := by
    intro q free
    unfold branch
    split_ifs <;> omega
  simp only [suggestedNode, if_pos hpos, hperNode, hload, hfree, hbranch, bind, Except.bind, pure,
    Except.pure, Except.ok.injEq, suggestion]
  split
  · omega
  · omega

/-! ### The bands of the load -/

/-- All nodes but one are used up, and the last one has free connections, but fewer than 50. -/
structure NearlyUsedUp (node m t : ℕ) : Prop where
  last : (node - 1) * m ≤ t
  free : t < node * m
  few : node * m < t + 50

instance (node m t : ℕ) : Decidable (NearlyUsedUp node m t) :=
  decidable_of_iff (_ ∧ _ ∧ _) ⟨fun h => ⟨h.1, h.2.1, h.2.2⟩, fun h => ⟨h.last, h.free, h.few⟩⟩

/-- The load in nodes is less than the number of nodes while there are free connections. -/
theorem load_lt_iff (hm : 1 ≤ m) : t / m < node ↔ t < node * m := Nat.div_lt_iff_lt_mul hm

theorem nearlyUsedUp_iff (hnode : 1 ≤ node) (hm : 1 ≤ m) :
    node = t / m + 1 ∧ node * m - t < 50 ↔ NearlyUsedUp node m t := by
  have hlast : node - 1 ≤ t / m ↔ (node - 1) * m ≤ t := Nat.le_div_iff_mul_le hm
  have hfree := @load_lt_iff node m t hm
  constructor
  · rintro ⟨hload, hfew⟩
    have hlt : t < node * m := hfree.mp (by omega)
    exact ⟨hlast.mp (by omega), hlt, by omega⟩
  · rintro ⟨h1, h2, h3⟩
    have hge := hlast.mpr h1
    have hlt := hfree.mpr h2
    exact ⟨by omega, by omega⟩

/-- The suggestion, band by band. -/
theorem suggestion_cases (hnode : 1 ≤ node) (hm : 1 ≤ m) (ht : t ≤ node * m) :
    (NearlyUsedUp node m t ∧ suggestion node m t = node + 1) ∨
    (¬ NearlyUsedUp node m t ∧ 270 < node * m - t ∧ t / m < node ∧
      suggestion node m t = max 2 (t / m + 1)) ∨
    (¬ NearlyUsedUp node m t ∧ node * m - t ≤ 270 ∧ suggestion node m t = max 2 node) := by
  have hiff := @nearlyUsedUp_iff node m t hnode hm
  unfold suggestion branch
  by_cases hband : NearlyUsedUp node m t
  · obtain ⟨hload, hfew⟩ := hiff.mpr hband
    rw [if_pos ⟨hload, hfew⟩]
    exact Or.inl ⟨hband, by omega⟩
  · rw [if_neg fun h => hband (hiff.mp h)]
    right
    split
    · next hmany => exact Or.inl ⟨hband, hmany, (load_lt_iff hm).mpr (by omega), rfl⟩
    · next hmany => exact Or.inr ⟨hband, by omega, rfl⟩

/-! ### More load -/

/-- More load does not lower the suggestion; in particular a cluster whose connections are all
in use is not left as it is when a less loaded one would grow. -/
def NotLowered (node m t₁ t₂ : ℕ) : Prop :=
  ∃ s₁ s₂ : ℤ, suggestedNode node t₁ (node * m : ℕ) = .ok s₁ ∧
    suggestedNode node t₂ (node * m : ℕ) = .ok s₂ ∧ s₁ ≤ s₂ ∧
    (t₂ = node * m → (node : ℤ) < s₁ → (node : ℤ) < s₂)

theorem notLowered_of_suggestion {t₁ t₂ : ℕ} (hnode : 1 ≤ node) (hm : 1 ≤ m) (h₁ : t₁ ≤ t₂)
    (h₂ : t₂ ≤ node * m) :
    NotLowered node m t₁ t₂ ↔ suggestion node m t₁ ≤ suggestion node m t₂ := by
  rw [NotLowered, suggestedNode_eq hnode hm (Nat.le_trans h₁ h₂), suggestedNode_eq hnode hm h₂]
  constructor
  · rintro ⟨s₁, s₂, hs₁, hs₂, hle, -⟩
    rw [← Except.ok.inj hs₁, ← Except.ok.inj hs₂] at hle
    exact Int.ofNat_le.mp hle
  · intro hle
    refine ⟨_, _, rfl, rfl, Int.ofNat_le.mpr hle, fun _ hlt => ?_⟩
    exact Int.lt_of_lt_of_le hlt (Int.ofNat_le.mpr hle)

/-- **Exactly when more load does not lower the suggestion**: unless the last of at least two
nodes is nearly used up at first, and used up altogether then. -/
theorem notLowered_iff {t₁ t₂ : ℕ} (hnode : 1 ≤ node) (hm : 1 ≤ m) (h₁ : t₁ ≤ t₂)
    (h₂ : t₂ ≤ node * m) :
    NotLowered node m t₁ t₂ ↔
      ¬ (2 ≤ node ∧ NearlyUsedUp node m t₁ ∧ t₂ = node * m) := by
  rw [notLowered_of_suggestion hnode hm h₁ h₂]
  have hload : t₁ / m ≤ t₂ / m := Nat.div_le_div_right h₁
  have hcases₁ := suggestion_cases hnode hm (Nat.le_trans h₁ h₂)
  have hcases₂ := suggestion_cases hnode hm h₂
  constructor
  · rintro hle ⟨hnode₂, hband, rfl⟩
    rcases hcases₁ with ⟨-, hs₁⟩ | ⟨hnot, -⟩ | ⟨hnot, -⟩
    · rcases hcases₂ with ⟨hband₂, -⟩ | ⟨-, hmany, -⟩ | ⟨-, -, hs₂⟩
      · exact absurd hband₂.free (Nat.lt_irrefl _)
      · omega
      · omega
    · exact hnot hband
    · exact hnot hband
  · intro hnot
    rcases hcases₁ with ⟨hband, hs₁⟩ | ⟨-, hmany, hlt, hs₁⟩ | ⟨-, hfew, hs₁⟩
    · rcases hcases₂ with ⟨-, hs₂⟩ | ⟨-, hmany, -⟩ | ⟨hband₂, -, hs₂⟩
      · omega
      · have hfew := hband.few
        omega
      · -- only a full cluster leaves the band, and it is not one of two nodes
        have hfull : ¬ t₂ < node * m := fun hlt =>
          hband₂ ⟨Nat.le_trans hband.last h₁, hlt, Nat.lt_of_lt_of_le hband.few (by omega)⟩
        have hone : ¬ 2 ≤ node := fun hnode₂ => hnot ⟨hnode₂, hband, by omega⟩
        omega
    · rcases hcases₂ with ⟨-, hs₂⟩ | ⟨-, -, -, hs₂⟩ | ⟨-, -, hs₂⟩
      · omega
      · omega
      · omega
    · rcases hcases₂ with ⟨-, hs₂⟩ | ⟨-, hmany, -⟩ | ⟨-, -, hs₂⟩
      · omega
      · omega
      · omega

/-- More connections on three nodes, until all of them are in use. -/
theorem notLowered_below : NotLowered 3 151 420 452 ∧ NotLowered 1 151 120 151 :=
  ⟨(notLowered_iff (by decide) (by decide) (by decide) (by decide)).mpr (by decide),
    (notLowered_iff (by decide) (by decide) (by decide) (by decide)).mpr (by decide)⟩

/-- Three nodes with 151 connections each are left as they are when all connections are in use;
with one connection less in use, a fourth is suggested. -/
theorem lowered_at_saturation : ¬ NotLowered 3 151 452 453 := by
  rintro ⟨s₁, s₂, hs₁, hs₂, hle, -⟩
  obtain rfl : 4 = s₁ := Except.ok.inj hs₁
  obtain rfl : 3 = s₂ := Except.ok.inj hs₂
  exact absurd hle (by decide)

/-! ### One node more -/

/-- If one node more is suggested, it is not given up for the same load. -/
def Stable (node m t : ℕ) : Prop :=
  suggestedNode node t (node * m : ℕ) = .ok (node + 1) →
    ∃ s : ℤ, suggestedNode (node + 1 : ℕ) t ((node + 1) * m : ℕ) = .ok s ∧ (node : ℤ) + 1 ≤ s

/-- **Exactly when a suggested node is not given up at once**: unless the last of at least two
nodes is nearly used up, and one more leaves more than 270 connections free. -/
theorem stable_iff (hnode : 1 ≤ node) (hm : 1 ≤ m) (ht : t ≤ node * m) :
    Stable node m t ↔
      ¬ (2 ≤ node ∧ NearlyUsedUp node m t ∧ t + 270 < (node + 1) * m) := by
  have hmore : (node + 1) * m = node * m + m := Nat.succ_mul node m
  have ht' : t ≤ (node + 1) * m := by omega
  have hcases := suggestion_cases hnode hm ht
  have hcases' := suggestion_cases (Nat.le_add_left 1 node) hm ht'
  rw [Stable, suggestedNode_eq hnode hm ht, suggestedNode_eq (Nat.le_add_left 1 node) hm ht']
  constructor
  · rintro hstable ⟨hnode₂, hband, hmany⟩
    obtain ⟨hload, -⟩ := (nearlyUsedUp_iff hnode hm).mpr hband
    have hfree := hband.free
    rcases hcases with ⟨-, hs⟩ | ⟨hnband, -⟩ | ⟨hnband, -⟩
    · obtain ⟨s, hs', hle⟩ := hstable (by rw [hs, Int.natCast_succ])
      obtain rfl := Except.ok.inj hs'
      rcases hcases' with ⟨hband', -⟩ | ⟨-, -, -, hs'⟩ | ⟨-, hfew, -⟩
      · -- the load does not reach the last of the nodes there are now
        have hlast : node * m ≤ t := hband'.last
        omega
      · omega
      · omega
    · exact hnband hband
    · exact hnband hband
  · intro hnot hsuggested
    have hs : suggestion node m t = node + 1 := by
      have hcast := Except.ok.inj hsuggested
      omega
    refine ⟨_, rfl, ?_⟩
    rcases Nat.lt_or_ge node 2 with hone | hnode₂
    · -- two nodes are always suggested
      rcases hcases' with ⟨-, hs'⟩ | ⟨-, -, -, hs'⟩ | ⟨-, -, hs'⟩
      · omega
      · omega
      · omega
    · rcases hcases with ⟨hband, -⟩ | ⟨-, -, hlt, hs₁⟩ | ⟨-, -, hs₁⟩
      · have hfew : ¬ t + 270 < (node + 1) * m := fun hmany => hnot ⟨hnode₂, hband, hmany⟩
        rcases hcases' with ⟨-, hs'⟩ | ⟨-, hmany, -⟩ | ⟨-, -, hs'⟩
        · omega
        · omega
        · omega
      · omega
      · omega

/-- With 151 connections for each node a fourth one is kept. -/
theorem stable_default : Stable 3 151 452 :=
  (stable_iff (by decide) (by decide) (by decide)).mpr (by decide)

/-- Three nodes with 1000 connections each: for 2990 connections a fourth is suggested, which
leaves 1010 of them free, so that three are enough again. -/
theorem unstable_at_thousand : ¬ Stable 3 1000 2990 := by
  intro hstable
  obtain ⟨s, hs, hle⟩ := hstable rfl
  obtain rfl : 3 = s := Except.ok.inj hs
  exact absurd hle (by decide)

end Suggestion

end BkPlatform.Mysql
