import Mathlib.Data.Nat.Notation

/-!
# Accounts of a run

A system holds a stock.  What comes in is booked, so that the state itself tells how much
has come in so far; what goes out is seen in the steps only.  If every step settles, that
is, if it changes the stock by what it books and by what goes out, then a whole run does:
nothing of what was booked is lost, and nothing is there twice.

## Main definitions

* `spent` — what goes out along a run.
* `Settles` — one step changes the stock by what it books and by what goes out.

## Main results

* `balance` — **a run whose steps settle does so as a whole.**
* `stock_add_spent_le` — a bound on what is booked bounds what is and was in stock.
-/

namespace Account

variable {σ α : Type} {f : σ → α → σ} {stock booked : σ → ℕ} {out : σ → α → ℕ}

/-- What goes out along a run. -/
def spent (f : σ → α → σ) (out : σ → α → ℕ) : σ → List α → ℕ
  | _, [] => 0
  | s, a :: as => out s a + spent f out (f s a) as

@[simp] theorem spent_cons (s : σ) (a : α) (as : List α) :
    spent f out s (a :: as) = out s a + spent f out (f s a) as := rfl

/-- What goes out in two ways. -/
theorem spent_add {out' : σ → α → ℕ} (s : σ) (as : List α) :
    spent f (fun s a => out s a + out' s a) s as = spent f out s as + spent f out' s as := by
  induction as generalizing s with
  | nil => rfl
  | cons a as ih =>
    rw [spent_cons, spent_cons, spent_cons, ih]
    omega

/-- Every step changes the stock by what it books and by what goes out. -/
def Settles (f : σ → α → σ) (stock booked : σ → ℕ) (out : σ → α → ℕ) : Prop :=
  ∀ s a, stock (f s a) + out s a + booked s = stock s + booked (f s a)

/-- **A run whose steps settle does so as a whole.** -/
theorem balance (h : Settles f stock booked out) (s : σ) (as : List α) :
    stock (as.foldl f s) + spent f out s as + booked s = stock s + booked (as.foldl f s) := by
  induction as generalizing s with
  | nil => rfl
  | cons a as ih =>
    have hstep := h s a
    have hrest := ih (f s a)
    rw [List.foldl_cons, spent_cons]
    omega

/-- From an empty account on, what is and was in stock is bounded by what is booked. -/
theorem stock_add_spent_le (h : Settles f stock booked out) {s : σ} (hempty : stock s = 0)
    {as : List α} {n : ℕ} (hbooked : booked (as.foldl f s) ≤ n) :
    stock (as.foldl f s) + spent f out s as ≤ n := by
  have hbalance := balance h s as
  omega

end Account
