import BkPlatform.Lib.Run
import BkPlatform.Portal.Access
import BkPlatform.Portal.Polls

/-!
# Destroyed is final, but for two polls

`updateState` returns at once for a destroyed instance, and with it `start`, `stop` and
`destroy_vm`; their guards and that of `deploy` ask for other states.  Two writes to the
state column do not look at it first:

* `isCreated` asks for the deployment job as long as its id does not read as true, and
  marks the row or fills it in before it looks whether the instance is gone;
* `VMDestroy` marks the row after a failed call and on status 2, whatever the row says.

## Main definitions

* `Reply.revives`, `Reply.failsDestroy` — the answers these two take for something else.
* `Undisturbed` — an operation is not given such an answer.

## Main results

* `destroyed_final` — **in every run that is undisturbed, a destroyed instance stays
  destroyed and no command is sent for it.**
* `destroyed_not_final` — a failed call of `VMDestroy` is enough for both.
-/

namespace BkPlatform.Portal

open Eff RubyString

/-! ### The condition -/

/-- The commands a log has sent. -/
def commandsSent (log : List Event) : List Command := log.filterMap Event.sent

/-- An answer to `isCreated` after which it writes another state than `Destroyed`: the
job has failed, or has made a machine in another state. -/
def Reply.revives : Reply → Bool
  | .queryAsyncJobResult (.str s) vm =>
    if toBool s then vm.any fun vm => vm.created.isSome && vm.state.any fun st => st != "Destroyed"
    else s != "0"
  | _ => false

/-- An answer to `isCreated` after which it returns with the job still open. -/
def Reply.leavesOpen : Reply → Bool
  | .nil => true
  | .queryAsyncJobResult (.str s) _ => s == "0"
  | _ => false

/-- An answer to `VMDestroy` after which it marks the row. -/
def Reply.failsDestroy : Reply → Bool
  | .nil => true
  | .queryAsyncJobResult (.int n) _ => n == 2
  | _ => false

/-- The operation, run on a destroyed row, is not given an answer after which it writes
another state; a row that fails its validations is not written at all. -/
def Undisturbed (w : World) (c : Call) : Prop :=
  w.holds = true →
    let first := c.replies.headD .nil
    let second := c.replies.tail.headD .nil
    match c.op with
    | .isCreated => w.row.asksJob = true → first.revives = false
    | .start => w.row.asksJob = true → first.revives = false
    | .vncToSpiceProtocol => w.row.asksJob = true → first.revives = false
    | .perform ⟨.vmDeploy, snapshot⟩ =>
      -- for such a snapshot the worker asks a second time
      w.row.asksJob = true → first.revives = false ∧
        (snapshot.state = "error" ∧ first.leavesOpen = true → second.revives = false)
    | .perform ⟨.vmDestroy, _⟩ => first.failsDestroy = false
    | _ => True

instance (w : World) (c : Call) : Decidable (Undisturbed w c) := by
  unfold Undisturbed
  refine @instDecidableForall _ _ inferInstance ?_
  dsimp only
  split <;> infer_instance

/-! ### One operation -/

/-- Still destroyed, and no command sent since `w₀`. -/
structure Rests (w₀ w : World) : Prop where
  state : w.row.state = "Destroyed"
  sent : commandsSent w.trace = commandsSent w₀.trace

section Rests

variable {w₀ : World} {bad : World → Prop}

theorem Instance.is_of_destroyed {i : Instance} (h : i.state = "Destroyed") (state : String) :
    i.is state = (downcase "Destroyed" == downcase state) := by
  rw [Instance.is, h]

/-- A question sends no command. -/
theorem Rests.afterQuery {w : World} (h : Rests w₀ w) {req : Request}
    (hreq : req.command = none) : Rests w₀ (w.afterCall req) where
  state := h.state
  sent := by
    rw [← h.sent]
    simp [commandsSent, World.afterCall, Event.sent, hreq]

/-- `updateState` returns at once. -/
theorem triple_updateState_destroyed (hgone : w₀.row.state = "Destroyed") :
    Triple (fun w => w = w₀) updateState (fun s w => s = none ∧ w = w₀) bad := by
  rintro w rfl
  have hdestroyed : w.row.is "destroyed" = true := by
    rw [Instance.is_of_destroyed hgone]
    decide
  rw [run_updateState, if_pos hdestroyed]
  exact ⟨rfl, rfl⟩

/-- So does the end of `isCreated`. -/
theorem run_stillThere_destroyed {w : World} (hgone : w.row.state = "Destroyed") :
    run stillThere w = (.ok false, w) := by
  have hdestroyed : w.row.is "destroyed" = true := by
    rw [Instance.is_of_destroyed hgone]
    decide
  simp [stillThere, run_bind, self, hdestroyed]

/-- **Asking for the deployment job of a destroyed row**, if the answer does not revive
it: the job stays open, or has made a machine that is destroyed. -/
theorem checkCreated_destroyed (hgone : w₀.row.state = "Destroyed") {job : String}
    (hquiet : w₀.holds = true → w₀.answer.revives = false) :
    Triple (fun w => w = w₀) (checkCreated job)
      (fun finished w => Rests w₀ w ∧
        if finished then w.row.jobCreatedId = some "1"
        else w = w₀.afterCall (.queryAsyncJobResult (some job)) ∧ w₀.answer.leavesOpen = true)
      (Rests w₀) := by
  rintro w rfl
  have hasked : Rests w (w.afterCall (.queryAsyncJobResult (some job))) :=
    Rests.afterQuery ⟨hgone, rfl⟩ rfl
  rw [run_checkCreated]
  cases hanswer : w.answer with
  | nil => exact ⟨hasked, rfl, rfl⟩
  | listVirtualMachines vms => exact hasked
  | job cmd jobid => exact hasked
  | malformed => exact hasked
  | queryAsyncJobResult jobstatus vm =>
    cases jobstatus with
    | int n => exact hasked
    | missing => exact hasked
    | str s =>
      rw [hanswer] at hquiet
      by_cases hs : toBool s = false
      · simp only [hs, if_true]
        by_cases hzero : s = "0"
        · rw [if_pos hzero]
          exact ⟨hasked, rfl, by simpa [Reply.leavesOpen] using hzero⟩
        · -- a failed job would mark the row
          rw [if_neg hzero]
          by_cases hholds : w.holds = true
          · have hzero' := hquiet hholds
            simp only [Reply.revives, hs, Bool.false_eq_true, if_false, bne_eq_false_iff_eq]
              at hzero'
            exact absurd hzero' hzero
          · rw [if_neg hholds]
            exact hasked
      · simp only [hs]
        cases vm with
        | none => exact hasked
        | some vm =>
          by_cases hdate : vm.created.isNone = true
          · simp only [hdate, if_true]
            exact hasked
          simp only [hdate, Bool.false_eq_true, if_false]
          cases hcreated : createdRow vm w.row with
          | none => exact hasked
          | some row =>
            by_cases hholds : w.holds = true
            · -- the machine written is a destroyed one
              obtain ⟨st, hst, rfl⟩ := Option.map_eq_some_iff.mp hcreated
              have hquiet' := hquiet hholds
              have htrue : toBool s = true := by simpa using hs
              have hdate' : vm.created.isSome = true := by
                simpa [Option.isSome_iff_ne_none] using hdate
              simp only [Reply.revives, htrue, if_true, Option.any_some, hdate', hst,
                Bool.true_and, bne_eq_false_iff_eq] at hquiet'
              simp only [hholds, if_true]
              exact ⟨⟨hquiet', hasked.sent⟩, rfl⟩
            · simp only [hholds, Bool.false_eq_true, if_false]
              exact hasked

/-- `isCreated` does not agree; if it has the job still open, it has asked and been told
so. -/
theorem isCreated_destroyed (hgone : w₀.row.state = "Destroyed")
    (hquiet : w₀.holds = true → w₀.row.asksJob = true → w₀.answer.revives = false) :
    Triple (fun w => w = w₀) isCreated
      (fun created w => (created = false ∧ Rests w₀ w) ∧ (w.row.asksJob = true →
        w₀.row.asksJob = true ∧ w₀.answer.leavesOpen = true ∧ w.holds = w₀.holds ∧
          w.answer = w₀.replies.tail.headD .nil))
      (Rests w₀) := by
  have hrests : Rests w₀ w₀ := ⟨hgone, rfl⟩
  rintro w rfl
  rw [run_isCreated]
  cases hjob : w.row.jobCreatedId with
  | none => exact ⟨⟨rfl, hrests⟩, fun h => by simp [Instance.asksJob, hjob] at h⟩
  | some job =>
    by_cases htrue : toBool job = true
    · simp only [htrue, if_true, run_stillThere_destroyed hgone]
      exact ⟨⟨trivial, hrests⟩, fun h => by simp [Instance.asksJob, hjob, htrue] at h⟩
    have hasks : w.row.asksJob = true := by simp [Instance.asksJob, hjob, htrue]
    have hcheck := @checkCreated_destroyed w hgone job (fun hholds => hquiet hholds hasks) w rfl
    simp only [htrue, Bool.false_eq_true, if_false]
    rcases hrun : run (checkCreated job) w with ⟨e | finished, w₁⟩
    · rw [hrun] at hcheck
      exact hcheck
    · rw [hrun] at hcheck
      cases finished with
      | false =>
        obtain ⟨hrest, rfl, hopen⟩ := hcheck
        exact ⟨⟨rfl, hrest⟩, fun _ => ⟨hasks, hopen, rfl, rfl⟩⟩
      | true =>
        obtain ⟨hrest, hdone⟩ := hcheck
        simp only [if_true, run_stillThere_destroyed hrest.state]
        refine ⟨⟨trivial, hrest⟩, fun h => ?_⟩
        -- the id of the job reads as true from now on
        simp only [if_true] at hdone
        rw [Instance.asksJob, hdone] at h
        exact absurd h (by decide)

/-- A guard that asks for a created instance does not let through. -/
theorem guard_destroyed {state : String} (hgone : w₀.row.state = "Destroyed")
    (hquiet : w₀.holds = true → w₀.row.asksJob = true → w₀.answer.revives = false) :
    Triple (fun w => w = w₀) (do
        let created ← isCreated
        let row ← self
        pure (created && row.is state))
      (fun can w => can = false ∧ Rests w₀ w) (Rests w₀) := by
  apply Triple.bind (isCreated_destroyed hgone hquiet)
  intro created
  apply Triple.bind read_self
  intro row
  refine Triple.pure ?_
  rintro w ⟨⟨rfl, hw⟩, -⟩
  exact ⟨rfl, hw⟩

theorem start_destroyed (hgone : w₀.row.state = "Destroyed")
    (hquiet : w₀.holds = true → w₀.row.asksJob = true → w₀.answer.revives = false) :
    Triple (fun w => w = w₀) start (fun _ => Rests w₀) (Rests w₀) := by
  unfold start canStart
  apply Triple.bind (triple_updateState_destroyed hgone)
  intro state
  apply Triple.bind ((guard_destroyed hgone hquiet).pre fun w hw => hw.2)
  intro can
  refine Triple.ite (fun hcan => ?_) fun _ => Triple.pure fun w hw => hw.2
  rintro w ⟨hno, -⟩
  rw [hno] at hcan
  exact absurd hcan (by decide)

/-- What follows an `updateState` that has to return a state. -/
theorem refused_destroyed {x : Action Bool} (hgone : w₀.row.state = "Destroyed") :
    Triple (fun w => w = w₀) (do
        let state ← updateState
        if state = none then pure false else x)
      (fun _ => Rests w₀) (Rests w₀) := by
  apply Triple.bind (triple_updateState_destroyed hgone)
  intro state
  refine Triple.ite (fun _ => Triple.pure ?_) fun hstate => ?_
  · rintro w ⟨-, rfl⟩
    exact ⟨hgone, rfl⟩
  · rintro w ⟨hnone, -⟩
    exact absurd hnone hstate

theorem deploy_destroyed (hgone : w₀.row.state = "Destroyed") :
    Triple (fun w => w = w₀) deploy (fun _ => Rests w₀) (Rests w₀) := by
  unfold deploy
  apply Triple.bind Triple.get
  intro a
  refine Triple.ite (fun hpending => ?_) fun _ => Triple.pure ?_
  · rintro w ⟨rfl, rfl⟩
    rw [Instance.is_of_destroyed hgone] at hpending
    exact absurd hpending (by decide)
  · rintro w ⟨rfl, -⟩
    exact ⟨hgone, rfl⟩

/-- The end of `VNCToSPICEProtocol` is not reached. -/
theorem vncToSpiceProtocol_destroyed {w₁ : World} (hrests : Rests w₀ w₁)
    (hquiet : w₁.holds = true → w₁.row.asksJob = true → w₁.answer.revives = false) :
    Triple (fun w => w = w₁) vncToSpiceProtocol (fun _ => Rests w₀) (Rests w₀) := by
  have htrans : ∀ w, Rests w₁ w → Rests w₀ w :=
    fun w hw => ⟨hw.state, hw.sent.trans hrests.sent⟩
  unfold vncToSpiceProtocol
  apply Triple.bind ((isCreated_destroyed hrests.state hquiet).weaken (fun w hw => hw)
    (fun _ _ hw => hw) htrans)
  intro created
  refine Triple.ite (fun _ => Triple.pure fun w hw => htrans w hw.1.2) fun hcreated => ?_
  rintro w ⟨⟨hno, -⟩, -⟩
  exact absurd hno hcreated

theorem rests_performLater {worker : Worker} {snapshot : Instance} :
    Keeps (Rests w₀) (performLater worker snapshot) :=
  triple_performLater fun _ _ hw => ⟨hw.state, hw.sent⟩

/-- `VMDeploy` asks once, or twice for a snapshot that is in error. -/
theorem vmDeploy_destroyed {snapshot : Instance} (hgone : w₀.row.state = "Destroyed")
    (hquiet : w₀.holds = true → w₀.row.asksJob = true → w₀.answer.revives = false ∧
      (snapshot.state = "error" ∧ w₀.answer.leavesOpen = true →
        (w₀.replies.tail.headD .nil).revives = false)) :
    Triple (fun w => w = w₀) (vmDeploy snapshot) (fun _ => Rests w₀) (Rests w₀) := by
  unfold vmDeploy
  apply Triple.bind (isCreated_destroyed hgone fun hholds hasks => (hquiet hholds hasks).1)
  intro created
  refine Triple.ite (fun _ => rests_performLater.pre fun w hw => hw.1.2) fun hagain => ?_
  rintro w ⟨⟨rfl, hw⟩, hopen⟩
  have herror : snapshot.state = "error" := by simpa using hagain
  refine Triple.bind (vncToSpiceProtocol_destroyed hw ?_) (fun _ => Keeps.pure) w rfl
  intro hholds hasks
  obtain ⟨hasks₀, hopen₀, hholds₀, hanswer⟩ := hopen hasks
  rw [hanswer]
  exact (hquiet (hholds₀ ▸ hholds) hasks₀).2 ⟨herror, hopen₀⟩

/-- `VMStart` and `VMStop` are enqueued again. -/
theorem requeued_destroyed {worker : Worker} {snapshot : Instance}
    {f : String → Action Unit} (hgone : w₀.row.state = "Destroyed") :
    Triple (fun w => w = w₀) (do
        let state ← updateState
        match state with
        | none => performLater worker snapshot
        | some s => f s)
      (fun _ => Rests w₀) (Rests w₀) := by
  apply Triple.bind (triple_updateState_destroyed hgone)
  intro state
  cases state with
  | none =>
    refine rests_performLater.pre ?_
    rintro w ⟨-, rfl⟩
    exact ⟨hgone, rfl⟩
  | some s =>
    rintro w ⟨hnone, -⟩
    exact absurd hnone (by simp)

/-- `VMDestroy` writes nothing, or once more that the instance is destroyed. -/
theorem vmDestroy_destroyed {snapshot : Instance} (hgone : w₀.row.state = "Destroyed")
    (hquiet : w₀.holds = true → w₀.answer.failsDestroy = false) :
    Triple (fun w => w = w₀) (vmDestroy snapshot) (fun _ => Rests w₀) (Rests w₀) := by
  rintro w rfl
  have hasked : Rests w (w.afterCall (.queryAsyncJobResult snapshot.jobId)) :=
    Rests.afterQuery ⟨hgone, rfl⟩ rfl
  -- a mark is refused, or does not come
  have hmark : w.answer.failsDestroy = true →
      Triple (fun v => v = w.afterCall (.queryAsyncJobResult snapshot.jobId))
        (updateAttributes fun r => some { r with state := "Error" })
        (fun _ => Rests w) (Rests w) := by
    rintro hfails v rfl
    rw [run_writeState, World.holds_afterCall]
    by_cases hholds : w.holds = true
    · rw [hquiet hholds] at hfails
      exact absurd hfails (by decide)
    · rw [if_neg hholds]
      exact hasked
  have hdestroyed : Triple (fun v => v = w.afterCall (.queryAsyncJobResult snapshot.jobId))
      (updateAttributes fun r => some { r with state := "Destroyed" })
      (fun _ => Rests w) (Rests w) := by
    rintro v rfl
    rw [run_writeState, World.holds_afterCall]
    by_cases hholds : w.holds = true
    · rw [if_pos hholds]
      exact ⟨rfl, hasked.sent⟩
    · rw [if_neg hholds]
      exact hasked
  have hstay : ∀ v, v = w.afterCall (.queryAsyncJobResult snapshot.jobId) → Rests w v := by
    rintro v rfl
    exact hasked
  unfold vmDestroy
  rw [run_bind_ok (run_postRequest _ w)]
  cases hanswer : w.answer with
  | nil => exact hmark (by rw [hanswer]; rfl) _ rfl
  | listVirtualMachines vms => exact hasked
  | job cmd jobid => exact hasked
  | malformed => exact hasked
  | queryAsyncJobResult jobstatus vm =>
    refine Triple.ite (fun htwo => hmark ?_) (fun _ => ?_) _ rfl
    · rw [hanswer, htwo]
      rfl
    refine Triple.ite (fun _ => rests_performLater.pre hstay) fun _ => ?_
    exact Triple.ite (fun _ => hdestroyed) fun _ => Triple.pure hstay

/-- **An undisturbed operation leaves a destroyed instance alone.** -/
theorem rests_operate {w : World} (hgone : w.row.state = "Destroyed") {c : Call}
    (hc : Undisturbed w c) : Rests w (operate w c) := by
  let w₁ : World := { w with replies := c.replies, ssh := c.ssh }
  have hrun : Triple (fun v => v = w₁) c.op.run (fun _ => Rests w₁) (Rests w₁) := by
    cases hop : c.op with
    | deploy => exact Triple.bind (deploy_destroyed hgone) fun _ => Keeps.pure
    | updateState =>
      refine Triple.bind (triple_updateState_destroyed hgone) fun _ => Triple.pure ?_
      rintro v ⟨-, rfl⟩
      exact ⟨hgone, rfl⟩
    | isCreated =>
      have hquiet : w.holds = true → w.row.asksJob = true →
          (c.replies.headD .nil).revives = false := by simpa [Undisturbed, hop] using hc
      exact Triple.bind (isCreated_destroyed hgone hquiet) fun _ => Triple.pure fun v hv => hv.1.2
    | start =>
      have hquiet : w.holds = true → w.row.asksJob = true →
          (c.replies.headD .nil).revives = false := by simpa [Undisturbed, hop] using hc
      exact Triple.bind (start_destroyed hgone hquiet) fun _ => Keeps.pure
    | stop forced => exact Triple.bind (refused_destroyed hgone) fun _ => Keeps.pure
    | destroyVm => exact Triple.bind (refused_destroyed hgone) fun _ => Keeps.pure
    | vncToSpiceProtocol =>
      have hquiet : w.holds = true → w.row.asksJob = true →
          (c.replies.headD .nil).revives = false := by simpa [Undisturbed, hop] using hc
      exact Triple.bind (vncToSpiceProtocol_destroyed ⟨hgone, rfl⟩ hquiet) fun _ => Keeps.pure
    | perform job =>
      obtain ⟨worker, snapshot⟩ := job
      cases worker with
      | vmDeploy =>
        have hquiet : w.holds = true → w.row.asksJob = true →
            (c.replies.headD .nil).revives = false ∧
              (snapshot.state = "error" ∧ (c.replies.headD .nil).leavesOpen = true →
                (c.replies.tail.headD .nil).revives = false) := by
          simpa [Undisturbed, hop] using hc
        exact vmDeploy_destroyed hgone hquiet
      | vmStart => exact requeued_destroyed hgone
      | vmStop => exact requeued_destroyed hgone
      | vmDestroy =>
        have hquiet : w.holds = true → (c.replies.headD .nil).failsDestroy = false := by
          simpa [Undisturbed, hop] using hc
        exact vmDestroy_destroyed hgone hquiet
  have hend : Rests w₁ (operate w c) := hrun.state rfl
  exact ⟨hend.state, hend.sent⟩

end Rests

/-! ### Every run -/

/-- A destroyed instance is left alone by a run. -/
structure Final (w : World) (calls : List Call) : Prop where
  state : (calls.foldl operate w).row.state = "Destroyed"
  sent : commandsSent (calls.foldl operate w).trace = commandsSent w.trace

/-- **Destroyed is final in every undisturbed run.** -/
theorem destroyed_final {w : World} (hgone : w.row.state = "Destroyed") {calls : List Call}
    (hcalls : Run.Along (Run.total operate) Undisturbed w calls) : Final w calls := by
  have hrests : Rests w (calls.foldl operate w) := by
    refine Run.foldl_inv_along (I := Rests w) (fun w' c hw hc => ?_) ⟨hgone, rfl⟩ hcalls
    have hnext := rests_operate hw.state hc
    exact ⟨hnext.state, hnext.sent.trans hw.sent⟩
  exact ⟨hrests.state, hrests.sent⟩

/-- A created, running instance. -/
def runningWorld : World where
  row := { id := 1, userId := some 7, instanceId := some "vm-1", jobCreatedId := some "1",
           serviceOfferingId := some 1, templateId := some 1, name := "an-desk",
           displayname := "desk", state := "Running" }
  catalogue := ⟨[], [], [⟨1, some "so-1", some 1, some 1000, some 512, some false, none⟩]⟩
  otherNames := []
  replies := []
  ssh := []
  trace := []
  queue := []

/-- A destroy is accepted, and the machine is listed as destroyed. -/
def destroyedWorld : World :=
  [⟨.destroyVm, [listing "Running", listing "Running", .job .destroy (some "31")], []⟩,
   (⟨.updateState, [listing "Destroyed"], []⟩ : Call)].foldl operate runningWorld

/-- The `VMDestroy` job enqueued by the destroy, polled without success, and a forced
stop. -/
def lateVmDestroy : List Call :=
  destroyedWorld.queue.map (fun job => ⟨.perform job, [.nil], []⟩) ++
    [⟨.stop true, [listing "Destroyed", .job .stop (some "32")], []⟩]

/-- **A destroyed instance does not stay destroyed, and is sent a command.** -/
theorem destroyed_not_final :
    destroyedWorld.row.state = "Destroyed" ∧ ¬ Final destroyedWorld lateVmDestroy := by
  refine ⟨by decide, fun h => ?_⟩
  exact absurd h.sent (by decide)

/-- The same jobs and calls with answers that do not disturb. -/
theorem final_of_answered :
    Final destroyedWorld [⟨.perform ⟨.vmDestroy, destroyedWorld.row⟩,
      [.queryAsyncJobResult (.int 1) none], []⟩, ⟨.start, [listing "Stopped"], []⟩,
      ⟨.perform ⟨.vmStart, destroyedWorld.row⟩, [listing "Running"], []⟩] :=
  destroyed_final (by decide) (by decide)

end BkPlatform.Portal
