import Mathlib.Logic.Basic
import Mathlib.Data.List.Basic

/-!
# Runs of a partial step function

A system is a step function `step : σ → α → Option σ`: in state `s` the action
`a` leads to one state, or is not enabled.  A run is a list of actions taken one
after the other.  Concurrency is expressed by the actions: each names the party
that moves, so a list of actions is one interleaving of the parties' steps, and
a statement about every list is a statement about every interleaving.

A statement about every state a run passes through is a statement about the
last state of every run, since a prefix of a run is a run (`exec_append`).

## Main definitions

* `exec step s as` — the state after the actions `as`.
* `Along step G s as` — `G` holds at every step the run takes.

## Main results

* `exec_inv` — an invariant of the step function holds after every run.
* `exec_inv_along` — the same for runs whose steps all meet a condition.
* `simulate` — forward simulation, carrying the condition along.
-/

namespace Run

variable {σ α σ' α' : Type*}

/-! ### Running a list of actions -/

/-- The state after the actions `as`, or `none` if one of them is not enabled. -/
def exec (step : σ → α → Option σ) : σ → List α → Option σ
  | s, [] => some s
  | s, a :: as => (step s a).bind fun t => exec step t as

/-- The condition `G` holds at every step of the run: it is asked of each action
together with the state the action is taken in. -/
def Along (step : σ → α → Option σ) (G : σ → α → Prop) : σ → List α → Prop
  | _, [] => True
  | s, a :: as => G s a ∧ ∀ t ∈ step s a, Along step G t as

variable {step : σ → α → Option σ} {G : σ → α → Prop}

@[simp] theorem exec_nil (s : σ) : exec step s [] = some s := rfl

@[simp] theorem exec_cons (s : σ) (a : α) (as : List α) :
    exec step s (a :: as) = (step s a).bind fun t => exec step t as := rfl

theorem exec_append (s : σ) (as bs : List α) :
    exec step s (as ++ bs) = (exec step s as).bind fun t => exec step t bs := by
  induction as generalizing s with
  | nil => rfl
  | cons a as ih =>
    simp only [List.cons_append, exec_cons]
    cases step s a with
    | none => rfl
    | some t => exact ih t

/-- The first step of a run that goes through. -/
theorem exec_cons_eq_some {s u : σ} {a : α} {as : List α} :
    exec step s (a :: as) = some u ↔ ∃ t, step s a = some t ∧ exec step t as = some u := by
  simp [Option.bind_eq_some_iff]

@[simp] theorem along_nil (s : σ) : Along step G s [] ↔ True := Iff.rfl

@[simp] theorem along_cons (s : σ) (a : α) (as : List α) :
    Along step G s (a :: as) ↔ G s a ∧ ∀ t, step s a = some t → Along step G t as := Iff.rfl

instance decidableAlong [∀ s a, Decidable (G s a)] :
    ∀ (s : σ) (as : List α), Decidable (Along step G s as)
  | _, [] => isTrue trivial
  | s, a :: as =>
    haveI : ∀ t, Decidable (Along step G t as) := fun t => decidableAlong t as
    match h : step s a with
    | none => decidable_of_iff (G s a) (by simp [h])
    | some t => decidable_of_iff (G s a ∧ Along step G t as) (by simp [h])

/-- The condition at the last step of a run: the part before it meets the
condition, and so does the last action in the state reached. -/
theorem Along.of_append {s t : σ} {as bs : List α} (h : Along step G s (as ++ bs))
    (hs : exec step s as = some t) : Along step G s as ∧ Along step G t bs := by
  induction as generalizing s with
  | nil =>
    obtain rfl : s = t := by simpa using hs
    exact ⟨trivial, h⟩
  | cons a as ih =>
    obtain ⟨u, hu, hs⟩ := exec_cons_eq_some.mp hs
    obtain ⟨hG, hrest⟩ := h
    obtain ⟨-, hlast⟩ := ih (hrest u hu) hs
    refine ⟨⟨hG, fun v hv => ?_⟩, hlast⟩
    obtain rfl : u = v := Option.some.inj (hu.symm.trans hv)
    exact (ih (hrest u hu) hs).1

/-! ### Invariants -/

/-- **A property kept by every step that meets the condition holds after every
run whose steps all meet it.** -/
theorem exec_inv_along {I : σ → Prop}
    (hstep : ∀ s a t, I s → G s a → step s a = some t → I t) {s t : σ} {as : List α}
    (hI : I s) (hG : Along step G s as) (hrun : exec step s as = some t) : I t := by
  induction as generalizing s with
  | nil =>
    obtain rfl : s = t := by simpa using hrun
    exact hI
  | cons a as ih =>
    obtain ⟨u, hu, hrun⟩ := exec_cons_eq_some.mp hrun
    exact ih (hstep s a u hI hG.1 hu) (hG.2 u hu) hrun

/-- A property kept by every step holds after every run. -/
theorem exec_inv {I : σ → Prop} (hstep : ∀ s a t, I s → step s a = some t → I t)
    {s t : σ} {as : List α} (hI : I s) (hrun : exec step s as = some t) : I t := by
  induction as generalizing s with
  | nil =>
    obtain rfl : s = t := by simpa using hrun
    exact hI
  | cons a as ih =>
    obtain ⟨u, hu, hrun⟩ := exec_cons_eq_some.mp hrun
    exact ih (hstep s a u hI hu) hrun

/-- Two conditions that agree wherever the invariant holds agree along every run: the
invariant is kept by the steps that meet the first of them. -/
theorem along_iff {I : σ → Prop} {H : σ → α → Prop} {as : List α}
    (hinv : ∀ s, ∀ a ∈ as, ∀ t, I s → G s a → step s a = some t → I t)
    (hiff : ∀ s, ∀ a ∈ as, I s → (G s a ↔ H s a)) {s : σ} (hI : I s) :
    Along step G s as ↔ Along step H s as := by
  induction as generalizing s with
  | nil => simp
  | cons a as ih =>
    have hhead := hiff s a List.mem_cons_self hI
    rw [along_cons, along_cons, ← hhead]
    refine and_congr_right fun hG => forall_congr' fun t => forall_congr' fun ht => ?_
    exact ih (fun s b hb => hinv s b (List.mem_cons_of_mem a hb))
      (fun s b hb => hiff s b (List.mem_cons_of_mem a hb)) (hinv s a List.mem_cons_self t hI hG ht)

/-! ### Simulation -/

section Simulation

variable {step' : σ' → α' → Option σ'} {G' : σ' → α' → Prop}

/-- **Forward simulation.**  If every step that meets the condition is either
invisible or one step of the abstract system that meets the abstract condition,
then every run that meets the condition is a run of the abstract system that
meets the abstract one. -/
theorem simulate {I : σ → Prop} (f : σ → σ')
    (hinv : ∀ s a t, I s → G s a → step s a = some t → I t)
    (hsim : ∀ s a t, I s → G s a → step s a = some t →
      f t = f s ∨ ∃ b, G' (f s) b ∧ step' (f s) b = some (f t))
    {s t : σ} {as : List α} (hI : I s) (hG : Along step G s as)
    (hrun : exec step s as = some t) :
    ∃ bs, Along step' G' (f s) bs ∧ exec step' (f s) bs = some (f t) := by
  induction as generalizing s with
  | nil =>
    obtain rfl : s = t := by simpa using hrun
    exact ⟨[], trivial, rfl⟩
  | cons a as ih =>
    obtain ⟨u, hu, hrun⟩ := exec_cons_eq_some.mp hrun
    obtain ⟨bs, hal, hbs⟩ := ih (hinv s a u hI hG.1 hu) (hG.2 u hu) hrun
    rcases hsim s a u hI hG.1 hu with hf | ⟨b, hb, hstep⟩
    · -- an invisible step
      exact ⟨bs, hf ▸ hal, hf ▸ hbs⟩
    · -- one step of the abstract system
      refine ⟨b :: bs, ⟨hb, fun v hv => ?_⟩, ?_⟩
      · obtain rfl : f u = v := Option.some.inj (hstep.symm.trans hv)
        exact hal
      · rw [exec_cons, hstep]
        exact hbs

end Simulation

/-! ### Total systems

A step function that never refuses is run with `List.foldl`; the lemmas above
apply to it through `total`. -/

/-- A total step function as a partial one. -/
def total (f : σ → α → σ) (s : σ) (a : α) : Option σ := some (f s a)

@[simp] theorem exec_total (f : σ → α → σ) (s : σ) (as : List α) :
    exec (total f) s as = some (as.foldl f s) := by
  induction as generalizing s with
  | nil => rfl
  | cons a as ih => exact ih (f s a)

/-- The invariant rule for a total step function. -/
theorem foldl_inv {f : σ → α → σ} {I : σ → Prop} (hstep : ∀ s a, I s → I (f s a))
    {s : σ} (hI : I s) (as : List α) : I (as.foldl f s) := by
  have hrun : exec (total f) s as = some (as.foldl f s) := exec_total f s as
  exact exec_inv (fun s a _ h ht => Option.some.inj ht ▸ hstep s a h) hI hrun

/-- The invariant rule for runs of a total step function under a condition. -/
theorem foldl_inv_along {f : σ → α → σ} {I : σ → Prop}
    (hstep : ∀ s a, I s → G s a → I (f s a)) {s : σ} (hI : I s) {as : List α}
    (hG : Along (total f) G s as) : I (as.foldl f s) := by
  have hrun : exec (total f) s as = some (as.foldl f s) := exec_total f s as
  exact exec_inv_along (fun s a _ h hg ht => Option.some.inj ht ▸ hstep s a h hg) hI hG hrun

/-- What the last state of a run satisfies held all along, if a step never brings it about. -/
theorem along_of_foldl {f : σ → α → σ} {P : σ → Prop} (hback : ∀ s a, P (f s a) → P s)
    {s : σ} {as : List α} (h : P (as.foldl f s)) :
    Along (total f) (fun s a => P (f s a)) s as ∧ P s := by
  induction as generalizing s with
  | nil => exact ⟨trivial, h⟩
  | cons a as ih =>
    obtain ⟨hrest, hfirst⟩ := ih h
    refine ⟨⟨hfirst, fun t ht => ?_⟩, hback s a hfirst⟩
    obtain rfl : f s a = t := Option.some.inj ht
    exact hrest

@[simp] theorem along_total_cons (f : σ → α → σ) (s : σ) (a : α) (as : List α) :
    Along (total f) G s (a :: as) ↔ G s a ∧ Along (total f) G (f s a) as := by
  simp [total]

/-- A condition along a run is one on every place of it. -/
theorem along_total_iff {f : σ → α → σ} {s : σ} {as : List α} :
    Along (total f) G s as ↔
      ∀ before a after, as = before ++ a :: after → G (before.foldl f s) a := by
  induction as generalizing s with
  | nil => exact iff_of_true trivial fun before a after h => by simp at h
  | cons b as ih =>
    rw [along_total_cons, ih]
    constructor
    · intro h before a after heq
      cases before with
      | nil =>
        obtain ⟨rfl, -⟩ := List.cons.inj heq
        exact h.1
      | cons c before =>
        obtain ⟨rfl, htail⟩ := List.cons.inj heq
        exact h.2 before a after htail
    · intro h
      refine ⟨h [] b as rfl, fun before a after htail => ?_⟩
      exact h (b :: before) a after (by rw [htail, List.cons_append])

/-- A property of every state a run passes through, asked of each step. -/
theorem along_iff_prefixes {f : σ → α → σ} {P : σ → Prop} {s : σ} {as : List α} (hs : P s) :
    Along (total f) (fun s a => P (f s a)) s as ↔
      ∀ before after, as = before ++ after → P (before.foldl f s) := by
  induction as generalizing s with
  | nil =>
    refine iff_of_true trivial fun before after h => ?_
    obtain ⟨rfl, -⟩ := List.append_eq_nil_iff.mp h.symm
    exact hs
  | cons a as ih =>
    rw [along_total_cons]
    constructor
    · rintro ⟨hfirst, hrest⟩ before after h
      cases before with
      | nil => exact hs
      | cons b before =>
        obtain ⟨rfl, htail⟩ := List.cons.inj h
        exact (ih hfirst).mp hrest before after htail
    · intro h
      have hfirst : P (f s a) := h [a] as rfl
      refine ⟨hfirst, (ih hfirst).mpr fun before after htail => ?_⟩
      exact h (a :: before) after (by rw [htail, List.cons_append])

/-- A condition on the actions alone. -/
theorem along_total_of_forall {f : σ → α → σ} {A : α → Prop} {as : List α}
    (h : ∀ a ∈ as, A a) (s : σ) : Along (total f) (fun _ a => A a) s as := by
  induction as generalizing s with
  | nil => trivial
  | cons a as ih =>
    rw [along_total_cons]
    exact ⟨h a List.mem_cons_self, ih (fun b hb => h b (List.mem_cons_of_mem a hb)) _⟩

end Run
