import BkPlatform.Portal.Binding
import BkPlatform.Portal.Destroyed
import BkPlatform.Portal.Polls

/-!
# Two readings of a job's result

`isCreated` and `VMDestroy` ask for the result of a job in the same words and read the
answer each in its own way.  `isCreated` takes the status for a string: it calls
`to_bool` on it and compares it with `"0"`.  `VMDestroy` compares it with the numbers 0,
1 and 2.  A failed call is a pending job to the one and a failed one to the other.

Whatever type the parser gives the status, one of the two cannot read it.

## Main definitions

* `Reading` — pending, completed or failed.
* `Reply.createdReading`, `Reply.destroyReading` — the two tables.
* `CreatedReads`, `DestroyReads` — what the methods do with an answer, on every row.
* `OneReading` — they read it alike, and `VMDestroy` comes to one of its three ends.

## Main results

* `createdReads_iff`, `destroyReads_iff` — the tables are what the methods do.
* `oneEnd_iff` — the answers on which `VMDestroy` comes to an end.
* `oneReading_never` — **no answer is read alike.**
-/

namespace BkPlatform.Portal

open Eff RubyString

/-- What the result of a job may be read as. -/
inductive Reading
  | pending
  | completed
  | failed
  deriving DecidableEq, Repr

/-! ### The tables -/

/-- The machine of a reply can be written down: it has a date and a state. -/
def Vm.complete (vm : Vm) : Bool := vm.created.isSome && vm.state.isSome

/-- How `isCreated` reads an answer, `none` where it raises. -/
def Reply.createdReading : Reply → Option Reading
  | .nil => some .pending
  | .queryAsyncJobResult (.str s) vm =>
    if toBool s then
      if vm.any Vm.complete then some .completed else none
    else
      some (if s = "0" then .pending else .failed)
  | _ => none

/-- How `VMDestroy` reads an answer, `none` where it raises or does nothing. -/
def Reply.destroyReading : Reply → Option Reading
  | .nil => some .failed
  | .queryAsyncJobResult (.int n) _ =>
    if n = 2 then some .failed
    else if n = 0 then some .pending
    else if n = 1 then some .completed
    else none
  | _ => none

/-! ### The methods -/

/-- What `isCreated` makes of its deployment job: it is left alone, the row is filled in
from the machine, or the row is in error. -/
def CreatedOutcome (job : String) (w : World) (out : Except Raised Bool × World) :
    Reading → Prop
  | .pending => out = (.ok false, w.afterCall (.queryAsyncJobResult (some job)))
  | .completed => ∃ vm row, createdRow vm w.row = some row ∧
      out = (.ok true, { w.afterCall (.queryAsyncJobResult (some job)) with row := row })
  | .failed =>
    out = (.ok false, (w.afterCall (.queryAsyncJobResult (some job))).withState "Error")

/-- The end of a run of `VMDestroy`: the job is enqueued again, or the row is destroyed or
in error. -/
def destroyOutcome (snapshot : Instance) (w : World) : Reading → Except Raised Unit × World
  | .pending =>
    (.ok (), { w.afterCall (.queryAsyncJobResult snapshot.jobId) with
      queue := w.queue ++ [⟨.vmDestroy, snapshot⟩] })
  | .completed =>
    (.ok (), (w.afterCall (.queryAsyncJobResult snapshot.jobId)).withState "Destroyed")
  | .failed => (.ok (), (w.afterCall (.queryAsyncJobResult snapshot.jobId)).withState "Error")

/-- `isCreated` reads the answer so, for every row with an open deployment job. -/
def CreatedReads (reply : Reply) (v : Reading) : Prop :=
  ∀ job w, w.row.jobCreatedId = some job → toBool job = false → w.holds = true →
    w.answer = reply → CreatedOutcome job w (run (checkCreated job) w) v

/-- `VMDestroy` reads the answer so, for every row. -/
def DestroyReads (reply : Reply) (v : Reading) : Prop :=
  ∀ snapshot w, w.holds = true → w.answer = reply →
    run (vmDestroy snapshot) w = destroyOutcome snapshot w v

/-- On every row, `VMDestroy` comes to exactly one of its three ends. -/
def OneEnd (reply : Reply) : Prop :=
  ∀ snapshot w, w.holds = true → w.answer = reply →
    ∃! v, run (vmDestroy snapshot) w = destroyOutcome snapshot w v

/-- **One reading**: both read the answer, alike, and `VMDestroy` comes to an end. -/
def OneReading (reply : Reply) : Prop :=
  (∃ v, CreatedReads reply v ∧ DestroyReads reply v) ∧ OneEnd reply

/-! ### What the methods do -/

/-- **`isCreated` goes by its table**, and raises where that has no entry. -/
theorem checkCreated_cases (job : String) {w : World} (hholds : w.holds = true) :
    (∃ v, w.answer.createdReading = some v ∧ CreatedOutcome job w (run (checkCreated job) w) v) ∨
      w.answer.createdReading = none ∧ ∃ e, (run (checkCreated job) w).1 = .error e := by
  rw [run_checkCreated]
  rcases hanswer : w.answer with _ | _ | _ | ⟨s | n | _, vm⟩ | _
  case nil => exact Or.inl ⟨.pending, rfl, rfl⟩
  case queryAsyncJobResult.str =>
    cases hdone : toBool s with
    | false =>
      left
      by_cases hzero : s = "0"
      · subst hzero
        exact ⟨.pending, by simp [Reply.createdReading, hdone], by simp [CreatedOutcome, hdone]⟩
      · exact ⟨.failed, by simp [Reply.createdReading, hdone, hzero],
          by simp [CreatedOutcome, hdone, hzero, hholds]⟩
    | true =>
      cases vm with
      | none => exact Or.inr ⟨by simp [Reply.createdReading, hdone], by simp [hdone]⟩
      | some vm =>
        cases hdate : vm.created with
        | none =>
          exact Or.inr ⟨by simp [Reply.createdReading, hdone, Vm.complete, hdate],
            by simp [hdone, hdate]⟩
        | some created =>
          cases hstate : vm.state with
          | none =>
            exact Or.inr ⟨by simp [Reply.createdReading, hdone, Vm.complete, hstate],
              by simp [hdone, hdate, createdRow, hstate]⟩
          | some state =>
            -- the machine is there, with its date and its state
            refine Or.inl ⟨.completed, ?_, vm, _, by rw [createdRow, hstate]; rfl, ?_⟩
            · simp [Reply.createdReading, hdone, Vm.complete, hdate, hstate]
            · simp [hdone, hdate, createdRow, hstate, hholds]
  all_goals exact Or.inr ⟨rfl, _, rfl⟩

/-- **`VMDestroy` goes by its table**, and raises or does nothing where that has no
entry. -/
theorem vmDestroy_cases (snapshot : Instance) {w : World} (hholds : w.holds = true) :
    (∃ v, w.answer.destroyReading = some v ∧
        run (vmDestroy snapshot) w = destroyOutcome snapshot w v) ∨
      w.answer.destroyReading = none ∧
        (run (vmDestroy snapshot) w).2 = w.afterCall (.queryAsyncJobResult snapshot.jobId) := by
  have hmark : ∀ s, run (updateAttributes fun r => some { r with state := s })
      (w.afterCall (.queryAsyncJobResult snapshot.jobId)) =
      (.ok (), (w.afterCall (.queryAsyncJobResult snapshot.jobId)).withState s) := by
    intro s
    rw [run_writeState, World.holds_afterCall, if_pos hholds]
  unfold vmDestroy
  rw [run_bind_ok (run_postRequest _ w)]
  rcases hanswer : w.answer with _ | _ | _ | ⟨s | n | _, vm⟩ | _
  case nil => exact Or.inl ⟨.failed, rfl, hmark _⟩
  case queryAsyncJobResult.int =>
    by_cases hfailed : n = 2
    · subst hfailed
      exact Or.inl ⟨.failed, rfl, hmark _⟩
    by_cases hpending : n = 0
    · subst hpending
      exact Or.inl ⟨.pending, rfl, rfl⟩
    by_cases hcompleted : n = 1
    · subst hcompleted
      exact Or.inl ⟨.completed, rfl, hmark _⟩
    · exact Or.inr ⟨by simp [Reply.destroyReading, hfailed, hpending, hcompleted],
        by simp [hfailed, hpending, hcompleted]⟩
  all_goals exact Or.inr ⟨rfl, rfl⟩

/-! ### The readings -/

/-- A row that is neither destroyed nor in error, with an open deployment job, and one
answer. -/
def answeredWorld (reply : Reply) : World :=
  { runningWorld with
    row := { runningWorld.row with jobCreatedId := some "21" }
    replies := [reply] }

theorem holds_answeredWorld (reply : Reply) : (answeredWorld reply).holds = true := by
  show runningWorld.holds = true
  decide

/-- The outcomes of `isCreated` differ where the row is not in error. -/
theorem createdOutcome_unique {job : String} {w : World} (hstate : w.row.state ≠ "Error")
    {out : Except Raised Bool × World} {v v' : Reading} (hv : CreatedOutcome job w out v)
    (hv' : CreatedOutcome job w out v') : v = v' := by
  have hwrite : w.afterCall (.queryAsyncJobResult (some job)) ≠
      (w.afterCall (.queryAsyncJobResult (some job))).withState "Error" := by
    intro heq
    exact hstate (congrArg (fun w : World => w.row.state) heq)
  cases v with
  | pending =>
    cases v' with
    | pending => rfl
    | completed =>
      obtain ⟨vm, row, -, rfl⟩ := hv'
      simp [CreatedOutcome] at hv
    | failed => exact absurd (Prod.mk.inj (hv.symm.trans hv')).2 hwrite
  | completed =>
    obtain ⟨vm, row, -, rfl⟩ := hv
    cases v' with
    | pending => simp [CreatedOutcome] at hv'
    | completed => rfl
    | failed => simp [CreatedOutcome] at hv'
  | failed =>
    cases v' with
    | pending => exact absurd (Prod.mk.inj (hv'.symm.trans hv)).2 hwrite
    | completed =>
      obtain ⟨vm, row, -, rfl⟩ := hv'
      simp [CreatedOutcome] at hv
    | failed => rfl

/-- An outcome of `isCreated` is not a raise. -/
theorem createdOutcome_ok {job : String} {w : World} {out : Except Raised Bool × World}
    {v : Reading} (hv : CreatedOutcome job w out v) : ∃ b, out.1 = .ok b := by
  cases v with
  | pending => exact ⟨false, by rw [hv]⟩
  | completed =>
    obtain ⟨vm, row, -, rfl⟩ := hv
    exact ⟨true, rfl⟩
  | failed => exact ⟨false, by rw [hv]⟩

/-- **What `isCreated` reads.** -/
theorem createdReads_iff {reply : Reply} {v : Reading} :
    CreatedReads reply v ↔ reply.createdReading = some v := by
  constructor
  · intro h
    have hout := h "21" (answeredWorld reply) rfl (by decide) (holds_answeredWorld reply) rfl
    rcases checkCreated_cases "21" (holds_answeredWorld reply) with ⟨v', hv', hout'⟩ | ⟨-, e, he⟩
    · rw [createdOutcome_unique (by simp [answeredWorld, runningWorld]) hout hout']
      exact hv'
    · obtain ⟨b, hb⟩ := createdOutcome_ok hout
      rw [hb] at he
      simp at he
  · rintro h job w hjob hopen hholds rfl
    rcases checkCreated_cases job hholds with ⟨v', hv', hout⟩ | ⟨hnone, -⟩
    · obtain rfl : v' = v := Option.some.inj (hv'.symm.trans h)
      exact hout
    · rw [h] at hnone
      simp at hnone

/-- The ends of `VMDestroy` differ, and each of them is more than the query if the row is
neither destroyed nor in error. -/
theorem destroyOutcome_injective (snapshot : Instance) (w : World) :
    Function.Injective (destroyOutcome snapshot w) := by
  intro v v' h
  have hstate : (destroyOutcome snapshot w v).2.row.state =
      (destroyOutcome snapshot w v').2.row.state := by rw [h]
  have hqueue : (destroyOutcome snapshot w v).2.queue.length =
      (destroyOutcome snapshot w v').2.queue.length := by rw [h]
  cases v <;> cases v' <;> simp [destroyOutcome] at hstate hqueue ⊢

theorem destroyOutcome_ne {snapshot : Instance} {w : World} (herror : w.row.state ≠ "Error")
    (hgone : w.row.state ≠ "Destroyed") (v : Reading) :
    w.afterCall (.queryAsyncJobResult snapshot.jobId) ≠ (destroyOutcome snapshot w v).2 := by
  intro h
  have hstate : w.row.state = (destroyOutcome snapshot w v).2.row.state := by
    rw [← h, World.row_afterCall]
  have hqueue : w.queue.length = (destroyOutcome snapshot w v).2.queue.length := by
    rw [← h, World.queue_afterCall]
  cases v with
  | pending => simp [destroyOutcome] at hqueue
  | completed => exact hgone hstate
  | failed => exact herror hstate

/-- An answer on which `VMDestroy` ends on the running row is one it reads. -/
theorem destroyReading_of_run {reply : Reply} {v : Reading}
    (h : run (vmDestroy runningWorld.row) (answeredWorld reply) =
      destroyOutcome runningWorld.row (answeredWorld reply) v) :
    reply.destroyReading = some v := by
  rcases vmDestroy_cases runningWorld.row (holds_answeredWorld reply) with
    ⟨v', hv', hout⟩ | ⟨-, hout⟩
  · rw [destroyOutcome_injective _ _ (h.symm.trans hout)]
    exact hv'
  · rw [h] at hout
    refine absurd hout.symm (destroyOutcome_ne ?_ ?_ v)
    · simp [answeredWorld, runningWorld]
    · simp [answeredWorld, runningWorld]

/-- **What `VMDestroy` reads.** -/
theorem destroyReads_iff {reply : Reply} {v : Reading} :
    DestroyReads reply v ↔ reply.destroyReading = some v := by
  constructor
  · intro h
    exact destroyReading_of_run (h _ _ (holds_answeredWorld reply) rfl)
  · rintro h snapshot w hholds rfl
    rcases vmDestroy_cases snapshot hholds with ⟨v', hv', hout⟩ | ⟨hnone, -⟩
    · obtain rfl : v' = v := Option.some.inj (hv'.symm.trans h)
      exact hout
    · rw [h] at hnone
      simp at hnone

/-- **The answers on which `VMDestroy` comes to an end**: a failed call and the numbers 0,
1 and 2. -/
theorem oneEnd_iff {reply : Reply} : OneEnd reply ↔ reply.destroyReading.isSome = true := by
  constructor
  · intro h
    obtain ⟨v, hv, -⟩ := h runningWorld.row (answeredWorld reply) (holds_answeredWorld reply) rfl
    rw [destroyReading_of_run hv]
    rfl
  · intro h snapshot w hholds hanswer
    obtain ⟨v, hv⟩ := Option.isSome_iff_exists.mp h
    have hrun := destroyReads_iff.mpr hv snapshot w hholds hanswer
    refine ⟨v, hrun, fun v' hv' => ?_⟩
    exact destroyOutcome_injective snapshot w (hv'.symm.trans hrun)

/-- The two tables agree nowhere. -/
theorem readings_differ (reply : Reply) (v : Reading) :
    ¬ (reply.createdReading = some v ∧ reply.destroyReading = some v) := by
  rintro ⟨hcreated, hdestroy⟩
  rcases reply with _ | _ | _ | ⟨s | n | _, vm⟩ | _
  case nil =>
    rw [← hdestroy] at hcreated
    exact absurd hcreated (by decide)
  case queryAsyncJobResult.str => simp [Reply.destroyReading] at hdestroy
  all_goals simp [Reply.createdReading] at hcreated

/-- **No answer is read alike**, whichever type its status has. -/
theorem oneReading_never (reply : Reply) : ¬ OneReading reply := by
  rintro ⟨⟨v, hcreated, hdestroy⟩, -⟩
  exact readings_differ reply v ⟨createdReads_iff.mp hcreated, destroyReads_iff.mp hdestroy⟩

/-- A finished job is read by one of the two only: with a string as its status `VMDestroy`
neither ends nor goes on, and with a number `isCreated` raises. -/
theorem unread_finished :
    ¬ OneReading (finishedJob "vm-1" "Running") ∧
      ¬ OneReading (.queryAsyncJobResult (.int 1)
        (some ⟨some "vm-1", some "Running", some "2013-08-28T02:19:09+0700"⟩)) := by
  constructor
  · rintro ⟨-, hend⟩
    exact absurd (oneEnd_iff.mp hend) (by decide)
  · rintro ⟨⟨v, hcreated, -⟩, -⟩
    have hread := createdReads_iff.mp hcreated
    simp [Reply.createdReading] at hread

end BkPlatform.Portal
