import Mathlib.Logic.Basic
import Mathlib.Data.List.Basic

/-!
# Properties of a log

A log grows at its end.  `Always P log` says of every entry that it satisfies
`P` together with the entries before it: what was there when the entry was
written.  "Nothing is sent while …", "whatever is accepted was issued earlier"
are statements of this form.

## Main definitions

* `Always P log` — every entry satisfies `P`, given the entries before it.

## Main results

* `always_snoc` — the rule for one more entry.
* `Always.of_append` — what holds of a log holds of its earlier state.
-/

namespace Log

variable {ε : Type*} {P Q : List ε → ε → Prop}

/-- Every entry of the log satisfies `P` together with the entries before it. -/
def Always (P : List ε → ε → Prop) (log : List ε) : Prop :=
  ∀ before e after, log = before ++ e :: after → P before e

@[simp] theorem always_nil : Always P [] := by
  intro before e after h
  simp at h

/-- The rule for one more entry. -/
@[simp] theorem always_snoc {log : List ε} {e : ε} :
    Always P (log ++ [e]) ↔ Always P log ∧ P log e := by
  constructor
  · intro h
    refine ⟨fun before x after hlog => ?_, h log e [] rfl⟩
    exact h before x (after ++ [e]) (by simp [hlog])
  · rintro ⟨hlog, he⟩ before x after heq
    rcases List.eq_nil_or_concat after with rfl | ⟨init, last, rfl⟩
    · -- the entry is the last one
      obtain ⟨rfl, hx⟩ := List.append_inj' heq rfl
      obtain rfl : e = x := by simpa using hx
      exact he
    · have heq' : log ++ [e] = (before ++ x :: init) ++ [last] := by simpa using heq
      obtain ⟨hinit, -⟩ := List.append_inj' heq' rfl
      exact hlog before x init hinit

/-- What holds of a log held of it earlier. -/
theorem Always.of_append {log more : List ε} (h : Always P (log ++ more)) : Always P log := by
  intro before e after hlog
  exact h before e (after ++ more) (by simp [hlog])

/-- The entries of `rest`, each together with `seen` and the entries before it. -/
def alwaysFrom (P : List ε → ε → Prop) : List ε → List ε → Prop
  | _, [] => True
  | seen, e :: rest => P seen e ∧ alwaysFrom P (seen ++ [e]) rest

theorem alwaysFrom_iff {seen rest : List ε} (hseen : Always P seen) :
    alwaysFrom P seen rest ↔ Always P (seen ++ rest) := by
  induction rest generalizing seen with
  | nil => simpa [alwaysFrom] using hseen
  | cons e rest ih =>
    have hsplit : seen ++ e :: rest = (seen ++ [e]) ++ rest := by simp
    constructor
    · rintro ⟨he, hrest⟩
      rw [hsplit]
      exact (ih (always_snoc.mpr ⟨hseen, he⟩)).mp hrest
    · intro h
      have he : P seen e := h seen e rest rfl
      rw [hsplit] at h
      exact ⟨he, (ih (always_snoc.mpr ⟨hseen, he⟩)).mpr h⟩

instance decidableAlwaysFrom [∀ before e, Decidable (P before e)] :
    ∀ seen rest : List ε, Decidable (alwaysFrom P seen rest)
  | _, [] => isTrue trivial
  | seen, e :: rest =>
    haveI := decidableAlwaysFrom (seen ++ [e]) rest
    inferInstanceAs (Decidable (P seen e ∧ alwaysFrom P (seen ++ [e]) rest))

instance [∀ before e, Decidable (P before e)] (log : List ε) : Decidable (Always P log) :=
  decidable_of_iff (alwaysFrom P [] log) (by simpa using alwaysFrom_iff always_nil)

end Log
