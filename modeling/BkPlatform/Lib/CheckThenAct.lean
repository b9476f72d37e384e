import BkPlatform.Lib.Run
import Mathlib.Logic.Function.Basic

/-!
# Check, then act, without a lock

A resource may be taken once: a ticket, a name, a row in its first state.  Each
party *checks* that the resource is open, later *wins* it, and only when it
*leaves* does it close the resource for the others.  Check and closing are
different steps, so two parties may both be inside; nothing in the resource
stops the second from winning too.

What does stop it is a schedule in which nobody checks an open resource while
somebody else is inside (`Alone`): then at most one party ever wins
(`winner_unique`).

## Main definitions

* `Phase`, `Race`, `Move`, `move` — the parties, the resource and their steps.
* `Alone` — the condition on a check.

## Main results

* `winner_unique` — **at most one winner in every run whose checks are alone.**
* `Safe.move` — every move whose check is alone keeps what this rests on.
-/

namespace CheckThenAct

/-- Where a party stands: not yet started, between its check and its leaving, or
finished; `won` says whether it has taken the resource. -/
inductive Phase
  /-- The party has not checked yet. -/
  | idle
  /-- The party found the resource open and has not closed it yet. -/
  | inside (won : Bool)
  /-- The party is finished. -/
  | done (won : Bool)
  deriving DecidableEq, Repr

/-- The party is between its check and its leaving. -/
def Phase.isInside : Phase → Bool
  | .inside _ => true
  | _ => false

/-- The party has taken the resource. -/
def Phase.hasWon : Phase → Bool
  | .inside won => won
  | .done won => won
  | .idle => false

@[simp] theorem Phase.isInside_idle : Phase.idle.isInside = false := rfl
@[simp] theorem Phase.isInside_inside (w : Bool) : (Phase.inside w).isInside = true := rfl
@[simp] theorem Phase.isInside_done (w : Bool) : (Phase.done w).isInside = false := rfl
@[simp] theorem Phase.hasWon_idle : Phase.idle.hasWon = false := rfl
@[simp] theorem Phase.hasWon_inside (w : Bool) : (Phase.inside w).hasWon = w := rfl
@[simp] theorem Phase.hasWon_done (w : Bool) : (Phase.done w).hasWon = w := rfl

/-- A party that has won is inside, or has finished as a winner. -/
theorem Phase.hasWon_cases {p : Phase} (h : p.hasWon = true) :
    p.isInside = true ∨ p = .done true := by
  cases p with
  | idle => simp at h
  | inside w => exact Or.inl rfl
  | done w =>
    obtain rfl : w = true := by simpa using h
    exact Or.inr rfl

/-- The resource and the parties racing for it. -/
structure Race (ι : Type*) where
  /-- Whether a check finds the resource open. -/
  isOpen : Bool
  /-- Where each party stands. -/
  phase : ι → Phase

/-- One step of the race. -/
inductive Move (ι : Type*)
  /-- A party looks at the resource. -/
  | check (i : ι)
  /-- A party finishes without looking at it. -/
  | skip (i : ι)
  /-- A party inside takes the resource. -/
  | win (i : ι)
  /-- A party inside finishes; a winner closes the resource, another one may. -/
  | leave (i : ι) (closes : Bool)

variable {ι : Type*} [DecidableEq ι]

/-- The step function of the race. -/
def move (s : Race ι) : Move ι → Option (Race ι)
  | .check i =>
    if s.phase i = .idle then
      some { s with
        phase := Function.update s.phase i (if s.isOpen then .inside false else .done false) }
    else none
  | .skip i =>
    if s.phase i = .idle then
      some { s with phase := Function.update s.phase i (.done false) }
    else none
  | .win i =>
    if s.phase i = .inside false then
      some { s with phase := Function.update s.phase i (.inside true) }
    else none
  | .leave i closes =>
    match s.phase i with
    | .inside won =>
      some { isOpen := s.isOpen && !(won || closes),
             phase := Function.update s.phase i (.done won) }
    | _ => none

/-- A check is alone when it does not find the resource open while another party
is inside. -/
def Alone (s : Race ι) : Move ι → Prop
  | .check _ => s.isOpen = true → ∀ j, (s.phase j).isInside = false
  | _ => True

/-- What every state of a run of lone checks satisfies. -/
structure Safe (s : Race ι) : Prop where
  /-- At most one party is inside. -/
  alone : ∀ i j, (s.phase i).isInside = true → (s.phase j).isInside = true → i = j
  /-- A winner that has left closed the resource, and nobody is inside since. -/
  closed : ∀ i, s.phase i = .done true → s.isOpen = false ∧ ∀ j, (s.phase j).isInside = false
  /-- There is at most one winner. -/
  unique : ∀ i j, (s.phase i).hasWon = true → (s.phase j).hasWon = true → i = j

omit [DecidableEq ι] in
/-- Before anybody has checked, the race is safe. -/
theorem safe_of_idle {s : Race ι} (h : ∀ i, s.phase i = .idle) : Safe s where
  alone := fun i _ hi => by simp [h i] at hi
  closed := fun i hi => by simp [h i] at hi
  unique := fun i _ hi => by simp [h i] at hi

omit [DecidableEq ι] in
/-- A safe race with a party inside has no winner among the others. -/
theorem Safe.eq_of_inside {s : Race ι} (hs : Safe s) {i j : ι}
    (hi : (s.phase i).isInside = true) (hj : (s.phase j).hasWon = true) : j = i := by
  rcases Phase.hasWon_cases hj with hin | hdone
  · exact hs.alone j i hin hi
  · -- a winner that has left would have nobody inside
    have hout := (hs.closed j hdone).2 i
    rw [hout] at hi
    exact absurd hi (by decide)

/-- What holds of a party after one party `i` has moved held of it before, if it
did for `i` itself. -/
theorem of_update {ph : ι → Phase} {i : ι} {p : Phase} {P : Phase → Bool}
    (h : P p = true → P (ph i) = true) {j : ι} (hj : P (Function.update ph i p j) = true) :
    P (ph j) = true := by
  rcases eq_or_ne j i with rfl | hne
  · rw [Function.update_self] at hj
    exact h hj
  · rwa [Function.update_of_ne hne] at hj

/-- A finished winner after party `i` has moved was one before, if `i` did not
become one. -/
theorem done_of_update {ph : ι → Phase} {i : ι} {p : Phase} (h : p ≠ .done true) {j : ι}
    (hj : Function.update ph i p j = .done true) : ph j = .done true := by
  rcases eq_or_ne j i with rfl | hne
  · rw [Function.update_self] at hj
    exact absurd hj h
  · rwa [Function.update_of_ne hne] at hj

/-- If nobody but `i` was inside, nobody is after `i` has finished. -/
theorem not_inside_of_done {ph : ι → Phase} {i : ι} {w : Bool}
    (h : ∀ j, (ph j).isInside = true → j = i) (j : ι) :
    (Function.update ph i (.done w) j).isInside = false := by
  rcases eq_or_ne j i with rfl | hne
  · rw [Function.update_self]
    rfl
  · rw [Function.update_of_ne hne]
    by_contra hin
    exact hne (h j (by simpa using hin))

/-- A party that finds the resource closed, or does not look, changes nothing that matters. -/
theorem Safe.check_closed {s : Race ι} (hs : Safe s) (i : ι) :
    Safe { s with phase := Function.update s.phase i (.done false) } where
  alone := fun j k hj hk =>
    hs.alone j k (of_update (by simp) hj) (of_update (by simp) hk)
  closed := by
    intro j hj
    obtain ⟨hshut, hout⟩ := hs.closed j (done_of_update (by simp) hj)
    exact ⟨hshut, not_inside_of_done fun k hk => absurd hk (by simp [hout k])⟩
  unique := fun j k hj hk =>
    hs.unique j k (of_update (by simp) hj) (of_update (by simp) hk)

/-- A lone check that finds the resource open lets its party in. -/
theorem Safe.check_open {s : Race ι} (hs : Safe s) (i : ι) (hopen : s.isOpen = true)
    (halone : ∀ j, (s.phase j).isInside = false) :
    Safe { s with phase := Function.update s.phase i (.inside false) } where
  alone := by
    have honly : ∀ l, (Function.update s.phase i (.inside false) l).isInside = true → l = i := by
      intro l hl
      by_contra hne
      rw [Function.update_of_ne hne, halone l] at hl
      exact absurd hl (by decide)
    intro j k hj hk
    rw [honly j hj, honly k hk]
  closed := by
    intro j hj
    have hshut := (hs.closed j (done_of_update (by simp) hj)).1
    rw [hopen] at hshut
    exact absurd hshut (by decide)
  unique := fun j k hj hk =>
    hs.unique j k (of_update (by simp) hj) (of_update (by simp) hk)

/-- The party inside takes the resource: nobody else has. -/
theorem Safe.win {s : Race ι} (hs : Safe s) {i : ι} (hi : s.phase i = .inside false) :
    Safe { s with phase := Function.update s.phase i (.inside true) } where
  alone := fun j k hj hk =>
    hs.alone j k (of_update (by simp [hi]) hj) (of_update (by simp [hi]) hk)
  closed := by
    intro j hj
    have hout := (hs.closed j (done_of_update (by simp) hj)).2 i
    rw [hi] at hout
    exact absurd hout (by decide)
  unique := by
    have honly : ∀ l, (Function.update s.phase i (.inside true) l).hasWon = true → l = i := by
      intro l hl
      by_contra hne
      rw [Function.update_of_ne hne] at hl
      exact hne (hs.eq_of_inside (by simp [hi]) hl)
    intro j k hj hk
    rw [honly j hj, honly k hk]

/-- The party inside leaves: if it has won, the resource is closed behind it. -/
theorem Safe.leave {s : Race ι} (hs : Safe s) {i : ι} {won closes : Bool}
    (hi : s.phase i = .inside won) :
    Safe { isOpen := s.isOpen && !(won || closes),
           phase := Function.update s.phase i (.done won) } where
  alone := fun j k hj hk =>
    hs.alone j k (of_update (by simp) hj) (of_update (by simp) hk)
  closed := by
    have hin : (s.phase i).isInside = true := by rw [hi]; rfl
    intro j hj
    refine ⟨?_, not_inside_of_done fun k hk => hs.alone k i hk hin⟩
    rcases eq_or_ne j i with rfl | hne
    · obtain rfl : won = true := by simpa using hj
      simp
    · have hj' : s.phase j = .done true := by simpa only [Function.update_of_ne hne] using hj
      simp [(hs.closed j hj').1]
  unique := fun j k hj hk =>
    hs.unique j k (of_update (by simp [hi]) hj) (of_update (by simp [hi]) hk)

/-- Every move keeps the race safe, if its check is alone. -/
theorem Safe.move {s t : Race ι} (hs : Safe s) {m : Move ι} (hm : Alone s m)
    (hstep : move s m = some t) : Safe t := by
  cases m with
  | check i =>
    simp only [CheckThenAct.move] at hstep
    split at hstep
    · obtain rfl := Option.some.inj hstep
      cases hopen : s.isOpen with
      | false => simpa [hopen] using hs.check_closed i
      | true => simpa [hopen] using hs.check_open i hopen (hm hopen)
    · simp at hstep
  | skip i =>
    simp only [CheckThenAct.move] at hstep
    split at hstep
    · obtain rfl := Option.some.inj hstep
      exact hs.check_closed i
    · simp at hstep
  | win i =>
    simp only [CheckThenAct.move] at hstep
    split at hstep
    · next hi =>
      obtain rfl := Option.some.inj hstep
      exact hs.win hi
    · simp at hstep
  | leave i closes =>
    simp only [CheckThenAct.move] at hstep
    split at hstep
    · next won hi =>
      obtain rfl := Option.some.inj hstep
      exact hs.leave hi
    · simp at hstep

/-- A run of lone checks from a state where nobody has started stays safe. -/
theorem safe_of_exec {s t : Race ι} {ms : List (Move ι)} (hidle : ∀ i, s.phase i = .idle)
    (hal : Run.Along CheckThenAct.move Alone s ms)
    (hrun : Run.exec CheckThenAct.move s ms = some t) : Safe t :=
  Run.exec_inv_along (fun _ _ _ hs hm hstep => hs.move hm hstep) (safe_of_idle hidle) hal hrun

/-- **At most one party wins**, in every run whose checks are alone. -/
theorem winner_unique {s t : Race ι} {ms : List (Move ι)} (hidle : ∀ i, s.phase i = .idle)
    (hal : Run.Along CheckThenAct.move Alone s ms)
    (hrun : Run.exec CheckThenAct.move s ms = some t) {i j : ι}
    (hi : (t.phase i).hasWon = true) (hj : (t.phase j).hasWon = true) : i = j :=
  (safe_of_exec hidle hal hrun).unique i j hi hj

end CheckThenAct
