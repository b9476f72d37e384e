import BkPlatform.Portal.Lifecycle

/-!
# What a poll comes to

`updateState` and `isCreated` only ask the cloud and write down what it says.  Their
outcome is a function of the row and of the next answer, which is written out here
case by case; so a method that begins with a poll is followed from the answer on.

## Main definitions

* `World.holds` — the row passes its validations.
* `World.withState` — the world with another state in the row.
* `Refreshes` — the cases of `updateState`, and `Asks` those of `checkCreated`.
* `Instance.going` — the machine is on its way out.
* `Instance.asksJob` — `isCreated` has to ask for the deployment job.

## Main results

* `run_updateState`, `run_stillThere`, `run_checkCreated` — the outcomes.
* `run_isCreated` — which of them `isCreated` comes to.
-/

namespace BkPlatform.Portal

open Eff RubyString

/-- The row passes its validations. -/
def World.holds (w : World) : Bool := w.row.valid w.catalogue w.otherNames

/-- The world with another state in the row. -/
def World.withState (w : World) (s : String) : World := { w with row := { w.row with state := s } }

/-- The next answer. -/
def World.answer (w : World) : Reply := w.replies.headD .nil

@[simp] theorem World.holds_withState (w : World) (s : String) :
    (w.withState s).holds = w.holds := rfl

@[simp] theorem World.holds_afterCall (w : World) (req : Request) :
    (w.afterCall req).holds = w.holds := rfl

@[simp] theorem World.withState_state (w : World) (s : String) :
    (w.withState s).row.state = s := rfl

@[simp] theorem World.row_afterCall (w : World) (req : Request) :
    (w.afterCall req).row = w.row := rfl

@[simp] theorem World.trace_afterCall (w : World) (req : Request) :
    (w.afterCall req).trace = w.trace ++ [.call req w.answer] := rfl

@[simp] theorem World.trace_withState (w : World) (s : String) :
    (w.withState s).trace = w.trace := rfl

@[simp] theorem World.queue_withState (w : World) (s : String) :
    (w.withState s).queue = w.queue := rfl

@[simp] theorem World.queue_afterCall (w : World) (req : Request) :
    (w.afterCall req).queue = w.queue := rfl

/-! ### Reading, asking and writing -/

theorem run_self (w : World) : run self w = (.ok w.row, w) := rfl

theorem run_postRequest (req : Request) (w : World) :
    run (postRequest req) w = (.ok w.answer, w.afterCall req) := rfl

/-- An update that fails its validations, or puts a null where none may be. -/
def refusal (w : World) : Raised := if w.holds then .statementInvalid else .recordInvalid

/-- An update that leaves the validated columns alone. -/
theorem run_updateAttributes {f : Instance → Option Instance} {w : World} {row : Instance}
    (hrow : f w.row = some row)
    (hvalid : row.valid w.catalogue w.otherNames = w.row.valid w.catalogue w.otherNames) :
    run (updateAttributes f) w =
      if w.holds then (.ok (), { w with row := row }) else (.error .recordInvalid, w) := by
  simp only [updateAttributes, run_bind, run_get, hrow, hvalid]
  change run (if w.holds = true then _ else _) w = _
  by_cases hholds : w.holds = true
  · rw [if_pos hholds, if_pos hholds]
    rfl
  · rw [if_neg hholds, if_neg hholds]
    rfl

/-- An update with a null. -/
theorem run_updateAttributes_none {f : Instance → Option Instance} {w : World}
    (hrow : f w.row = none) : run (updateAttributes f) w = (.error (refusal w), w) := by
  simp only [updateAttributes, run_bind, run_get, hrow, refusal]
  change run (if w.holds = true then _ else _) w = _
  by_cases hholds : w.holds = true
  · rw [if_pos hholds, if_pos hholds]
    rfl
  · rw [if_neg hholds, if_neg hholds]
    rfl

/-- Only the state is written. -/
theorem run_writeState (w : World) (s : String) :
    run (updateAttributes fun r => some { r with state := s }) w =
      if w.holds then (.ok (), w.withState s) else (.error .recordInvalid, w) :=
  run_updateAttributes rfl rfl

/-! ### The list -/

/-- **The outcome of `updateState`.** -/
theorem run_updateState (w : World) :
    run updateState w =
      if w.row.is "destroyed" then (.ok none, w)
      else
        let w₁ := w.afterCall (.listVirtualMachines w.row.instanceId)
        match w.answer with
        | .nil => (.ok none, w₁)
        | .listVirtualMachines [vm] =>
          match vm.state with
          | none => (.error (refusal w), w₁)
          | some s =>
            if w.holds then (.ok (some s), w₁.withState s) else (.error .recordInvalid, w₁)
        | .listVirtualMachines (_ :: _ :: _) => (.error .typeError, w₁)
        | _ => (.error .noMethodError, w₁) := by
  unfold updateState
  rw [run_bind_ok (run_self w)]
  by_cases hgone : w.row.is "destroyed" = true
  · rw [if_pos hgone, if_pos hgone]
    rfl
  rw [if_neg hgone, if_neg hgone, run_bind_ok (run_postRequest _ w)]
  cases hanswer : w.answer with
  | nil => rfl
  | job cmd jobid => rfl
  | queryAsyncJobResult jobstatus vm => rfl
  | malformed => rfl
  | listVirtualMachines vms =>
    rw [if_neg (by simp)]
    cases vms with
    | nil => rfl
    | cons vm rest =>
      cases rest with
      | cons vm' rest => rfl
      | nil =>
        rw [run_bind_ok (show run (listedState _) _ = (.ok vm.state, _) from rfl), run_bind]
        cases hstate : vm.state with
        | none =>
          rw [run_updateAttributes_none rfl]
          simp only [hstate]
          rfl
        | some s =>
          simp only [hstate, Option.map_some]
          rw [run_writeState, World.holds_afterCall]
          by_cases hholds : w.holds = true
          · simp only [hholds, if_true]
            rfl
          · simp only [hholds, Bool.false_eq_true, if_false]

/-- What `updateState` comes to, one case for each kind of answer. -/
inductive Refreshes (w : World) : Except Raised (Option String) × World → Prop
  /-- The row is a destroyed one, and nothing is asked. -/
  | gone (hgone : w.row.is "destroyed" = true) : Refreshes w (.ok none, w)
  /-- The call has failed. -/
  | unanswered (hlive : w.row.is "destroyed" = false) (hanswer : w.answer = .nil) :
      Refreshes w (.ok none, w.afterCall (.listVirtualMachines w.row.instanceId))
  /-- One machine is listed, and its state is written. -/
  | listed {vm : Vm} {s : String} (hlive : w.row.is "destroyed" = false)
      (hanswer : w.answer = .listVirtualMachines [vm]) (hs : vm.state = some s)
      (hholds : w.holds = true) :
      Refreshes w
        (.ok (some s), (w.afterCall (.listVirtualMachines w.row.instanceId)).withState s)
  /-- There is no state in the answer, or it is refused. -/
  | raises {e : Raised} (hlive : w.row.is "destroyed" = false) (hanswer : w.answer ≠ .nil)
      (hrefused : ∀ vm s, w.answer = .listVirtualMachines [vm] → vm.state = some s →
        w.holds = false) :
      Refreshes w (.error e, w.afterCall (.listVirtualMachines w.row.instanceId))

theorem refreshes_updateState (w : World) : Refreshes w (run updateState w) := by
  rw [run_updateState]
  cases hlive : w.row.is "destroyed" with
  | true => exact .gone hlive
  | false =>
    have hother : ∀ e, w.answer ≠ .nil → (∀ vm, w.answer ≠ .listVirtualMachines [vm]) →
        Refreshes w (.error e, w.afterCall (.listVirtualMachines w.row.instanceId)) := by
      intro e hnil hno
      exact .raises hlive hnil fun vm s hanswer _ => absurd hanswer (hno vm)
    cases hanswer : w.answer with
    | nil => exact .unanswered hlive hanswer
    | job cmd jobid => exact hother _ (by simp [hanswer]) (by simp [hanswer])
    | queryAsyncJobResult jobstatus vm => exact hother _ (by simp [hanswer]) (by simp [hanswer])
    | malformed => exact hother _ (by simp [hanswer]) (by simp [hanswer])
    | listVirtualMachines vms =>
      cases vms with
      | nil => exact hother _ (by simp [hanswer]) (by simp [hanswer])
      | cons vm rest =>
        cases rest with
        | cons vm' rest => exact hother _ (by simp [hanswer]) (by simp [hanswer])
        | nil =>
          have hone : ∀ vm', w.answer = .listVirtualMachines [vm'] → vm' = vm := by
            intro vm' heq
            simpa [hanswer, eq_comm] using heq
          cases hs : vm.state with
          | none =>
            simp only [hs]
            refine .raises hlive (by simp [hanswer]) fun vm' s heq hs' => ?_
            rw [hone vm' heq, hs] at hs'
            exact absurd hs' (by simp)
          | some s =>
            simp only [hs]
            cases hholds : w.holds with
            | true => exact .listed hlive hanswer hs hholds
            | false => exact .raises hlive (by simp [hanswer]) fun _ _ _ _ => hholds

/-- The machine is on its way out, or gone. -/
def Instance.going (r : Instance) : Bool := r.is "destroying" || r.is "destroyed"

/-- The outcome of the end of `isCreated`. -/
theorem run_stillThere (w : World) :
    run stillThere w =
      if w.row.going then (.ok false, w)
      else
        match run updateState w with
        | (.ok _, w₁) => (.ok (!w₁.row.going), w₁)
        | (.error e, w₁) => (.error e, w₁) := by
  unfold stillThere
  rw [run_bind_ok (run_self w)]
  change run (if w.row.going = true then _ else _) w = _
  by_cases hgoing : w.row.going = true
  · rw [if_pos hgoing, if_pos hgoing]
    rfl
  rw [if_neg hgoing, if_neg hgoing, run_bind]
  rcases run updateState w with ⟨e | state, w₁⟩
  · rfl
  · change run (if w₁.row.going = true then _ else _) w₁ = _
    cases hgoing₁ : w₁.row.going <;> simp [hgoing₁]

/-! ### The deployment job -/

/-- `isCreated` asks for the deployment job: there is one, and its id does not read as
true. -/
def Instance.asksJob (r : Instance) : Bool := r.jobCreatedId.any fun job => !toBool job

/-- The outcome of asking for the deployment job. -/
theorem run_checkCreated (job : String) (w : World) :
    run (checkCreated job) w =
      let w₁ := w.afterCall (.queryAsyncJobResult (some job))
      match w.answer with
      | .nil => (.ok false, w₁)
      | .queryAsyncJobResult (.str s) vm =>
        if toBool s = false then
          if s = "0" then (.ok false, w₁)
          else if w.holds then (.ok false, w₁.withState "Error") else (.error .recordInvalid, w₁)
        else
          match vm with
          | none => (.error .noMethodError, w₁)
          | some vm =>
            if vm.created.isNone then (.error .argumentError, w₁)
            else
              match createdRow vm w.row with
              | none => (.error (refusal w), w₁)
              | some row =>
                if w.holds then (.ok true, { w₁ with row := row }) else (.error .recordInvalid, w₁)
      | _ => (.error .noMethodError, w₁) := by
  unfold checkCreated
  rw [run_bind_ok (run_postRequest _ w)]
  rcases hanswer : w.answer with _ | _ | _ | ⟨s | n | _, vm⟩ | _
  case queryAsyncJobResult.str =>
    by_cases hs : toBool s = false
    · by_cases hzero : s = "0"
      · subst hzero
        simp [JobStatus.toBool, run_bind, hs]
      · simp only [JobStatus.toBool, run_bind, run_pure, hs, if_true, ne_eq,
          JobStatus.str.injEq, hzero, not_false_eq_true, if_false, run_writeState,
          World.holds_afterCall]
        by_cases hholds : w.holds = true <;> simp [hholds]
    · have hrow : run (JobStatus.toBool (.str s))
          (w.afterCall (.queryAsyncJobResult (some job))) =
          (.ok (toBool s), w.afterCall (.queryAsyncJobResult (some job))) := rfl
      simp only
      rw [run_bind_ok hrow, if_neg hs, if_neg hs]
      cases vm with
      | none => rfl
      | some vm =>
        simp only
        by_cases hdate : vm.created.isNone = true
        · rw [if_pos hdate, if_pos hdate]
          rfl
        rw [if_neg hdate, if_neg hdate, run_bind]
        cases hcreated : createdRow vm w.row with
        | none =>
          rw [run_updateAttributes_none (w := w.afterCall _) hcreated]
          rfl
        | some row =>
          have hvalid : row.valid w.catalogue w.otherNames =
              w.row.valid w.catalogue w.otherNames := by
            obtain ⟨s', -, rfl⟩ := Option.map_eq_some_iff.mp hcreated
            rfl
          rw [run_updateAttributes (w := w.afterCall _) hcreated hvalid, World.holds_afterCall]
          by_cases hholds : w.holds = true <;> simp [hholds]
  all_goals simp [JobStatus.toBool, run_bind]

/-- What asking for the deployment job comes to. -/
inductive Asks (job : String) (w : World) : Except Raised Bool × World → Prop
  /-- The job is still pending, or the call has failed. -/
  | unfinished : Asks job w (.ok false, w.afterCall (.queryAsyncJobResult (some job)))
  /-- The job has failed. -/
  | failed (hholds : w.holds = true) :
      Asks job w (.ok false, (w.afterCall (.queryAsyncJobResult (some job))).withState "Error")
  /-- The job is done, and its machine is written down. -/
  | finished {s : String} {vm : Vm} {row : Instance}
      (hanswer : w.answer = .queryAsyncJobResult (.str s) (some vm)) (hdone : toBool s = true)
      (hrow : createdRow vm w.row = some row) (hholds : w.holds = true) :
      Asks job w (.ok true, { w.afterCall (.queryAsyncJobResult (some job)) with row := row })
  /-- The answer cannot be read, or its machine is refused. -/
  | raises {e : Raised} : Asks job w (.error e, w.afterCall (.queryAsyncJobResult (some job)))

theorem asks_checkCreated (job : String) (w : World) : Asks job w (run (checkCreated job) w) := by
  rw [run_checkCreated]
  rcases hanswer : w.answer with _ | _ | _ | ⟨s | n | _, vm⟩ | _
  case nil => exact .unfinished
  case queryAsyncJobResult.str =>
    cases hdone : toBool s with
    | false =>
      by_cases hzero : s = "0"
      · simpa only [hzero, hdone, if_true] using .unfinished
      cases hholds : w.holds with
      | false => simpa [hdone, hzero, hholds] using .raises
      | true => simpa [hdone, hzero, hholds] using .failed hholds
    | true =>
      cases vm with
      | none => simpa [hdone] using .raises
      | some vm =>
        cases hdate : vm.created.isNone with
        | true => simpa [hdone, hdate] using .raises
        | false =>
          cases hrow : createdRow vm w.row with
          | none => simpa [hdone, hdate, hrow] using .raises
          | some row =>
            cases hholds : w.holds with
            | false => simpa [hdone, hdate, hrow, hholds] using .raises
            | true => simpa [hdone, hdate, hrow, hholds] using .finished hanswer hdone hrow hholds
  all_goals exact .raises

/-- What `isCreated` comes to. -/
theorem run_isCreated (w : World) :
    run isCreated w =
      match w.row.jobCreatedId with
      | none => (.ok false, w)
      | some job =>
        if toBool job then run stillThere w
        else
          match run (checkCreated job) w with
          | (.ok finished, w₁) => if finished then run stillThere w₁ else (.ok false, w₁)
          | (.error e, w₁) => (.error e, w₁) := by
  unfold isCreated
  rw [run_bind_ok (run_self w)]
  cases hjob : w.row.jobCreatedId with
  | none => rfl
  | some job =>
    by_cases htrue : toBool job = true
    · simp only [htrue, if_true]
    · simp only [htrue, Bool.false_eq_true, if_false, run_bind]
      rcases run (checkCreated job) w with ⟨_ | finished, w₁⟩
      · rfl
      · cases finished <;> rfl

end BkPlatform.Portal
