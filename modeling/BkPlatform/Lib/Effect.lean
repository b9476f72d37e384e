import Mathlib.Logic.Relation
import Mathlib.Data.List.Basic

/-!
# Stateful computations that may raise

`Eff ε σ α` is a computation over a state `σ` that returns an `α` or raises an
`ε`.  What it did to the state before raising stays done: there is no
transaction unless the program asks for one.

`Triple P x good bad` is the Hoare triple of such a computation: from a state
satisfying `P` it returns some `a` in a state satisfying `good a`, or raises in a
state satisfying `bad`.  There is one rule for each way of building a
computation, and `Keeps` is the triple of an invariant.

## Main definitions

* `Eff`, `Eff.raise`, `Eff.get`, `Eff.modify`, `Eff.rescue`, `Eff.transaction` —
  computations.
* `Returns x s` — the computation does not raise.
* `Triple P x good bad`, `Keeps I x` — triples and invariants.
* `Keeps (ReflTransGen R s₀) x` — the computation changes the state by steps of `R` only.
* `within`, `Projects` — a computation over a part of the state.

## Main results

* `returns_bind_iff`, `returns_transaction_iff` — when a computation returns.
* `Triple.bind`, `Triple.ite`, `Triple.rescue`, `Triple.transaction`, `Triple.weaken` —
  the rules.
* `Keeps.bind`, `Keeps.ite` — the same for an invariant.
* `Keeps.of_steps`, `Triple.of_steps` — what every step of `R` keeps, a computation made of such
  steps keeps.
-/

/-- A computation over a state `σ` that returns an `α` or raises an `ε`. -/
def Eff (ε σ α : Type) : Type := σ → Except ε α × σ

namespace Eff

variable {ε σ α β : Type}

/-- Run a computation from a state. -/
def run (x : Eff ε σ α) (s : σ) : Except ε α × σ := x s

/-- Raise an exception, leaving the state as it is. -/
def raise (e : ε) : Eff ε σ α := fun s => (.error e, s)

/-- Read the state. -/
def get : Eff ε σ σ := fun s => (.ok s, s)

/-- Change the state. -/
def modify (f : σ → σ) : Eff ε σ Unit := fun s => (.ok (), f s)

/-- Run `x`; if it raises, go on with the handler in the state it left. -/
def rescue (x : Eff ε σ α) (handler : ε → Eff ε σ α) : Eff ε σ α := fun s =>
  match x s with
  | (.ok a, t) => (.ok a, t)
  | (.error e, t) => handler e t

/-- Run `x`; if it raises, the state is rolled back to what it was before. -/
def transaction (x : Eff ε σ α) : Eff ε σ α := fun s =>
  match x s with
  | (.ok a, t) => (.ok a, t)
  | (.error e, _) => (.error e, s)

instance : Monad (Eff ε σ) where
  pure a := fun s => (.ok a, s)
  bind x f := fun s =>
    match x s with
    | (.ok a, t) => f a t
    | (.error e, t) => (.error e, t)

@[simp] theorem run_pure (a : α) (s : σ) : run (pure a : Eff ε σ α) s = (.ok a, s) := rfl

@[simp] theorem run_raise (e : ε) (s : σ) : run (raise e : Eff ε σ α) s = (.error e, s) := rfl

@[simp] theorem run_get (s : σ) : run (get : Eff ε σ σ) s = (.ok s, s) := rfl

@[simp] theorem run_modify (f : σ → σ) (s : σ) :
    run (modify f : Eff ε σ Unit) s = (.ok (), f s) := rfl

theorem run_bind (x : Eff ε σ α) (f : α → Eff ε σ β) (s : σ) :
    run (x >>= f) s = match run x s with
      | (.ok a, t) => run (f a) t
      | (.error e, t) => (.error e, t) := rfl

theorem run_bind_ok {x : Eff ε σ α} {f : α → Eff ε σ β} {s t : σ} {a : α}
    (h : run x s = (.ok a, t)) : run (x >>= f) s = run (f a) t := by
  rw [run_bind, h]

theorem run_bind_error {x : Eff ε σ α} {f : α → Eff ε σ β} {s t : σ} {e : ε}
    (h : run x s = (.error e, t)) : run (x >>= f) s = (.error e, t) := by
  rw [run_bind, h]

/-- Dropping the result leaves the state behind as it is. -/
theorem state_run_discard (x : Eff ε σ α) (b : β) (s : σ) :
    (run (x >>= fun _ => pure b) s).2 = (run x s).2 := by
  rw [run_bind]
  rcases run x s with ⟨e | a, t⟩
  · rfl
  · rfl

theorem run_rescue (x : Eff ε σ α) (handler : ε → Eff ε σ α) (s : σ) :
    run (rescue x handler) s = match run x s with
      | (.ok a, t) => (.ok a, t)
      | (.error e, t) => run (handler e) t := rfl

theorem run_transaction (x : Eff ε σ α) (s : σ) :
    run (transaction x) s = match run x s with
      | (.ok a, t) => (.ok a, t)
      | (.error e, _) => (.error e, s) := rfl

/-! ### Returning -/

/-- From `s` the computation returns. -/
def Returns (x : Eff ε σ α) (s : σ) : Prop := ∃ a t, run x s = (.ok a, t)

theorem returns_iff {x : Eff ε σ α} {s : σ} : Returns x s ↔ ∃ a, (run x s).1 = .ok a :=
  ⟨fun ⟨a, _, h⟩ => ⟨a, congrArg Prod.fst h⟩, fun ⟨a, h⟩ => ⟨a, (run x s).2, Prod.ext h rfl⟩⟩

theorem not_returns_of_error {x : Eff ε σ α} {s t : σ} {e : ε} (h : run x s = (.error e, t)) :
    ¬ Returns x s := by
  rintro ⟨a, u, hok⟩
  rw [h] at hok
  cases hok

/-- A sequence returns where its first part does and the rest does after it. -/
theorem returns_bind_iff {x : Eff ε σ α} {f : α → Eff ε σ β} {s : σ} :
    Returns (x >>= f) s ↔ ∃ a t, run x s = (.ok a, t) ∧ Returns (f a) t := by
  constructor
  · rintro ⟨b, u, h⟩
    rcases hrun : run x s with ⟨o, t⟩
    cases o with
    | ok a =>
      rw [run_bind_ok hrun] at h
      exact ⟨a, t, rfl, b, u, h⟩
    | error e =>
      rw [run_bind_error hrun] at h
      cases h
  · rintro ⟨a, t, hrun, b, u, h⟩
    exact ⟨b, u, (run_bind_ok hrun).trans h⟩

/-- What cannot raise does not matter after what may. -/
theorem returns_bind_of_forall {x : Eff ε σ α} {f : α → Eff ε σ β} {s : σ}
    (hf : ∀ a t, Returns (f a) t) : Returns (x >>= f) s ↔ Returns x s := by
  rw [returns_bind_iff]
  exact ⟨fun ⟨a, t, hrun, _⟩ => ⟨a, t, hrun⟩, fun ⟨a, t, hrun⟩ => ⟨a, t, hrun, hf a t⟩⟩

theorem returns_transaction_iff {x : Eff ε σ α} {s : σ} :
    Returns (transaction x) s ↔ Returns x s := by
  rw [returns_iff, returns_iff, run_transaction]
  rcases run x s with ⟨e | a, t⟩
  · rfl
  · rfl

/-! ### Triples -/

/-- From a state satisfying `P`, the computation returns an `a` in a state
satisfying `good a`, or raises in a state satisfying `bad`. -/
def Triple (P : σ → Prop) (x : Eff ε σ α) (good : α → σ → Prop) (bad : σ → Prop) : Prop :=
  ∀ s, P s →
    match run x s with
    | (.ok a, t) => good a t
    | (.error _, t) => bad t

/-- The computation keeps the invariant `I`, whether it returns or raises. -/
def Keeps (I : σ → Prop) (x : Eff ε σ α) : Prop := Triple I x (fun _ => I) I

variable {P P' I bad bad' : σ → Prop} {good good' : α → σ → Prop}

theorem Triple.pure {a : α} (h : ∀ s, P s → good a s) :
    Triple P (Pure.pure a : Eff ε σ α) good bad := h

theorem Triple.raise {e : ε} (h : ∀ s, P s → bad s) :
    Triple P (raise e : Eff ε σ α) good bad := h

theorem Triple.modify {f : σ → σ} {good : Unit → σ → Prop} (h : ∀ s, P s → good () (f s)) :
    Triple P (modify f : Eff ε σ Unit) good bad := h

/-- Reading the state tells what it is. -/
theorem Triple.get : Triple P (get : Eff ε σ σ) (fun a s => P s ∧ a = s) bad :=
  fun _ hs => ⟨hs, rfl⟩

/-- Reading the state leaves it as it is. -/
theorem Triple.read : Triple P (Eff.get : Eff ε σ σ) (fun _ => P) bad := fun _ hs => hs

/-- The rule of sequence: a raise in the first part is a raise of the whole. -/
theorem Triple.bind {x : Eff ε σ α} {f : α → Eff ε σ β} {M : α → σ → Prop}
    {good : β → σ → Prop} (hx : Triple P x M bad) (hf : ∀ a, Triple (M a) (f a) good bad) :
    Triple P (x >>= f) good bad := by
  intro s hs
  have hmid := hx s hs
  rcases hrun : run x s with ⟨o, t⟩
  rw [hrun] at hmid
  cases o with
  | ok a =>
    rw [run_bind_ok hrun]
    exact hf a t hmid
  | error e =>
    rw [run_bind_error hrun]
    exact hmid

theorem Triple.ite {c : Prop} [Decidable c] {x y : Eff ε σ α} (hx : c → Triple P x good bad)
    (hy : ¬ c → Triple P y good bad) : Triple P (if c then x else y) good bad := by
  by_cases h : c
  · rw [if_pos h]
    exact hx h
  · rw [if_neg h]
    exact hy h

/-- The rule of `rescue`: the handler starts where the raise left the state. -/
theorem Triple.rescue {x : Eff ε σ α} {handler : ε → Eff ε σ α} {M : σ → Prop}
    (hx : Triple P x good M) (hh : ∀ e, Triple M (handler e) good bad) :
    Triple P (rescue x handler) good bad := by
  intro s hs
  have hmid := hx s hs
  rw [run_rescue]
  rcases hrun : run x s with ⟨o, t⟩
  rw [hrun] at hmid
  cases o with
  | ok a => exact hmid
  | error e => exact hh e t hmid

/-- The rule of transactions: a raise leaves what was there before. -/
theorem Triple.transaction {x : Eff ε σ α} {M : σ → Prop} (hx : Triple P x good M)
    (hbad : ∀ s, P s → bad s) : Triple P (transaction x) good bad := by
  intro s hs
  have hmid := hx s hs
  rw [run_transaction]
  rcases hrun : run x s with ⟨o, t⟩
  rw [hrun] at hmid
  cases o with
  | ok a => exact hmid
  | error e => exact hbad s hs

/-- The rule of consequence. -/
theorem Triple.weaken {x : Eff ε σ α} (h : Triple P x good bad) (hP : ∀ s, P' s → P s)
    (hgood : ∀ a s, good a s → good' a s) (hbad : ∀ s, bad s → bad' s) :
    Triple P' x good' bad' := by
  intro s hs
  have hx := h s (hP s hs)
  rcases hrun : run x s with ⟨o, t⟩
  rw [hrun] at hx
  cases o with
  | ok a => exact hgood a t hx
  | error e => exact hbad t hx

theorem Triple.pre {x : Eff ε σ α} (h : Triple P x good bad) (hP : ∀ s, P' s → P s) :
    Triple P' x good bad :=
  h.weaken hP (fun _ _ hg => hg) fun _ hb => hb

theorem Triple.post {x : Eff ε σ α} (h : Triple P x good bad)
    (hgood : ∀ a s, good a s → good' a s) : Triple P x good' bad :=
  h.weaken (fun _ hs => hs) hgood fun _ hb => hb

/-- What a triple says about the state left behind, if both outcomes satisfy `I`. -/
theorem Triple.state {x : Eff ε σ α} (h : Triple P x (fun _ => I) I) {s : σ} (hs : P s) :
    I (run x s).2 := by
  have hx := h s hs
  rcases hrun : run x s with ⟨o, t⟩
  rw [hrun] at hx
  cases o with
  | ok a => exact hx
  | error e => exact hx

/-- A triple that is about the state left behind only. -/
theorem Triple.of_state {x : Eff ε σ α} (h : ∀ s, P s → I (run x s).2) :
    Triple P x (fun _ => I) I := by
  intro s hs
  have hx := h s hs
  rcases hrun : run x s with ⟨o, t⟩
  rw [hrun] at hx
  cases o with
  | ok a => exact hx
  | error e => exact hx

/-- What a triple says about what is returned. -/
theorem Triple.returned {x : Eff ε σ α} (h : Triple P x good bad) {s : σ} (hs : P s) {a : α}
    (hrun : (run x s).1 = .ok a) : good a (run x s).2 := by
  have hx := h s hs
  rcases hpair : run x s with ⟨o, t⟩
  rw [hpair] at hx hrun
  obtain rfl : o = .ok a := hrun
  exact hx

/-! ### Invariants -/

theorem Keeps.pure {a : α} : Keeps I (Pure.pure a : Eff ε σ α) := fun _ hs => hs

theorem Keeps.raise {e : ε} : Keeps I (Eff.raise e : Eff ε σ α) := fun _ hs => hs

theorem Keeps.bind {x : Eff ε σ α} {f : α → Eff ε σ β} (hx : Keeps I x)
    (hf : ∀ a, Keeps I (f a)) : Keeps I (x >>= f) :=
  Triple.bind hx hf

/-- An invariant is about the state left behind. -/
theorem Keeps.of_state {x : Eff ε σ α} (h : ∀ s, I s → I (run x s).2) : Keeps I x :=
  Triple.of_state h

theorem Keeps.ite {c : Prop} [Decidable c] {x y : Eff ε σ α} (hx : c → Keeps I x)
    (hy : ¬ c → Keeps I y) : Keeps I (if c then x else y) :=
  Triple.ite hx hy

/-! ### Steps

What a computation can do to the state is said once, by a relation `R` whose steps it is
made of; an invariant is then a matter of the single steps. -/

section Steps

open Relation

variable {R : σ → σ → Prop} {s₀ : σ}

/-- A change that is a step of `R` wherever `P` holds. -/
theorem Triple.step {f : σ → σ} (hf : ∀ s, P s → R s (f s)) :
    Triple (fun s => ReflTransGen R s₀ s ∧ P s) (Eff.modify f : Eff ε σ Unit)
      (fun _ => ReflTransGen R s₀) bad :=
  Triple.modify fun s hs => hs.1.tail (hf s hs.2)

/-- What the steps keep holds after any number of them. -/
theorem inv_of_steps (hI : ∀ s t, R s t → I s → I t) {s t : σ} (hsteps : ReflTransGen R s t)
    (hs : I s) : I t := by
  induction hsteps with
  | refl => exact hs
  | tail _ hstep ih => exact hI _ _ hstep ih

/-- **What every step of `R` keeps, a computation made of such steps keeps.** -/
theorem Keeps.of_steps {x : Eff ε σ α} (hx : ∀ s₀, Keeps (ReflTransGen R s₀) x)
    (hI : ∀ s t, R s t → I s → I t) : Keeps I x := by
  intro s hs
  have hsteps := hx s s .refl
  rcases hrun : run x s with ⟨o, t⟩
  rw [hrun] at hsteps
  cases o with
  | ok a => exact inv_of_steps hI hsteps hs
  | error e => exact inv_of_steps hI hsteps hs

/-- The same for a computation that starts where `P` holds and makes `good` true. -/
theorem Triple.of_steps {x : Eff ε σ α}
    (hx : ∀ s₀, Triple (fun s => ReflTransGen R s₀ s ∧ P s) x
      (fun a s => ReflTransGen R s₀ s ∧ good a s) (ReflTransGen R s₀))
    (hI : ∀ s t, R s t → I s → I t) :
    Triple (fun s => I s ∧ P s) x (fun a s => I s ∧ good a s) I := by
  rintro s ⟨hs, hP⟩
  have hsteps := hx s s ⟨.refl, hP⟩
  rcases hrun : run x s with ⟨o, t⟩
  rw [hrun] at hsteps
  cases o with
  | ok a => exact ⟨inv_of_steps hI hsteps.1 hs, hsteps.2⟩
  | error e => exact inv_of_steps hI hsteps hs

end Steps

/-! ### A part of the state

A computation over a larger state goes its own way beside one over a part of it: whatever
is proved of the smaller holds of the part. -/

section Part

variable {τ : Type}

/-- Run a computation over the part of the state that `part` reads and `put` writes back. -/
def within (part : τ → σ) (put : σ → τ → τ) (x : Eff ε σ α) : Eff ε τ α := fun t =>
  ((run x (part t)).1, put (run x (part t)).2 t)

@[simp] theorem run_within (part : τ → σ) (put : σ → τ → τ) (x : Eff ε σ α) (t : τ) :
    run (within part put x) t = ((run x (part t)).1, put (run x (part t)).2 t) := rfl

/-- `y` ends as `x` does on the part, and does to it what `x` does. -/
def Projects (part : τ → σ) (y : Eff ε τ α) (x : Eff ε σ α) : Prop :=
  ∀ t, run x (part t) = ((run y t).1, part (run y t).2)

variable {part : τ → σ} {put : σ → τ → τ}

theorem Projects.state {y : Eff ε τ α} {x : Eff ε σ α} (h : Projects part y x) (t : τ) :
    part (run y t).2 = (run x (part t)).2 := by
  rw [h t]

theorem Projects.within (hput : ∀ s t, part (put s t) = s) (x : Eff ε σ α) :
    Projects part (within part put x) x := fun t => by
  rw [run_within, hput]

theorem Projects.pure (a : α) : Projects part (Pure.pure a : Eff ε τ α) (Pure.pure a) :=
  fun _ => rfl

theorem Projects.raise (e : ε) : Projects part (Eff.raise e : Eff ε τ α) (Eff.raise e) :=
  fun _ => rfl

theorem Projects.bind {y : Eff ε τ α} {x : Eff ε σ α} {g : α → Eff ε τ β} {f : α → Eff ε σ β}
    (hx : Projects part y x) (hf : ∀ a, Projects part (g a) (f a)) :
    Projects part (y >>= g) (x >>= f) := by
  intro t
  rcases hrun : run y t with ⟨o, u⟩
  have hpart := hx t
  rw [hrun] at hpart
  cases o with
  | ok a =>
    rw [run_bind_ok hrun, run_bind_ok hpart]
    exact hf a u
  | error e =>
    rw [run_bind_error hrun, run_bind_error hpart]

/-- Reading the larger state is not seen in the part. -/
theorem Projects.read {g : τ → Eff ε τ β} {x : Eff ε σ β} (h : ∀ a, Projects part (g a) x) :
    Projects part (Eff.get >>= g) x := fun t => h t t

theorem Projects.modify {f : τ → τ} (hf : ∀ t, part (f t) = part t) :
    Projects part (Eff.modify f : Eff ε τ Unit) (Pure.pure ()) := fun t => by
  rw [run_modify, run_pure, hf]

/-- What does nothing to the part is left out there. -/
theorem Projects.silent {y : Eff ε τ α} {a : α} {g : α → Eff ε τ β} {x : Eff ε σ β}
    (hy : Projects part y (Pure.pure a)) (h : Projects part (g a) x) :
    Projects part (y >>= g) x := by
  intro t
  rcases hrun : run y t with ⟨o, u⟩
  have hpart := hy t
  rw [hrun, run_pure] at hpart
  obtain ⟨hout, hsame⟩ := Prod.mk.inj hpart
  obtain rfl := hout
  rw [run_bind_ok hrun, hsame]
  exact h u

end Part

end Eff
