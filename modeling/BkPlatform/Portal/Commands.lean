import BkPlatform.Portal.Polls

/-!
# What a command comes to

`start`, `stop` and `destroy_vm` end alike: the command is sent, and an accepted one is
written down and waited for.  The outcome is a function of the row and of the answer, as
that of a poll is.  A deployment has three outcomes.

An invariant of these methods is then a matter of few changes: a call, a state, a job in
the queue and the job of an accepted command; only `isCreated` writes more than that, and
only while the deployment job is open.

## Main definitions

* `World.stored`, `World.later` — what an accepted command leaves behind.
* `Deploys` — the outcomes of a deployment.
* `Kept` — an invariant of these changes.

## Main results

* `run_sendCommand`, `deploys_deploy` — the outcome of a command and of a deployment.
* `Kept.run` — every method but `deploy` keeps such an invariant.
-/

namespace BkPlatform.Portal

open Eff RubyString

/-! ### The outcome -/

/-- The job of an accepted command is written down. -/
def World.stored (w : World) (cmd : Command) (forced : Bool) (jobid : Option String)
    (state : String) : World :=
  { w with
    row := { w.row with jobId := jobid, state := state }
    trace := w.trace ++ [.stored cmd forced jobid] }

/-- The worker that waits for it is enqueued. -/
def World.later (w : World) : Option Worker → World
  | some worker => { w with queue := w.queue ++ [⟨worker, w.row⟩] }
  | none => w

@[simp] theorem World.row_later (w : World) (later : Option Worker) :
    (w.later later).row = w.row := by
  cases later <;> rfl

@[simp] theorem World.trace_later (w : World) (later : Option Worker) :
    (w.later later).trace = w.trace := by
  cases later <;> rfl

theorem run_storeJob (cmd : Command) (forced : Bool) (jobid : Option String) (state : String)
    (w : World) :
    run (storeJob cmd forced jobid state) w =
      if w.holds then (.ok (), w.stored cmd forced jobid state)
      else (.error .recordInvalid, w) := by
  unfold storeJob
  rw [run_bind, @run_updateAttributes _ w { w.row with jobId := jobid, state := state } rfl rfl]
  by_cases hholds : w.holds = true
  · rw [if_pos hholds, if_pos hholds]
    rfl
  · rw [if_neg hholds, if_neg hholds]

/-- **The outcome of a command.** -/
theorem run_sendCommand (req : Instance → Request) (cmd : Command) (forced : Bool)
    (state : String) (later : Option Worker) (w : World) :
    run (sendCommand req cmd forced state later) w =
      let w₁ := w.afterCall (req w.row)
      match w.answer with
      | .nil => (.ok false, w₁)
      | .job cmd' jobid =>
        if cmd' = cmd then
          if w.holds then (.ok true, (w₁.stored cmd forced jobid state).later later)
          else (.error .recordInvalid, w₁)
        else (.error .noMethodError, w₁)
      | _ => (.error .noMethodError, w₁) := by
  unfold sendCommand
  rw [run_bind_ok (run_self w), run_bind_ok (run_postRequest _ w)]
  cases hanswer : w.answer with
  | nil => rfl
  | listVirtualMachines vms => rfl
  | queryAsyncJobResult jobstatus vm => rfl
  | malformed => rfl
  | job cmd' jobid =>
    rw [if_neg (by simp)]
    by_cases hcmd : cmd' = cmd
    · have hjobid : run (jobidOf cmd (.job cmd' jobid)) (w.afterCall (req w.row)) =
          (.ok jobid, w.afterCall (req w.row)) := by
        simp only [jobidOf, hcmd, if_true, run_pure]
      rw [run_bind_ok hjobid, run_bind, run_storeJob, World.holds_afterCall]
      by_cases hholds : w.holds = true
      · simp only [hholds, hcmd, if_true]
        cases later <;> rfl
      · simp only [hholds, hcmd, if_true, Bool.false_eq_true, if_false]
    · have hjobid : run (jobidOf cmd (.job cmd' jobid)) (w.afterCall (req w.row)) =
          (.error .noMethodError, w.afterCall (req w.row)) := by
        simp only [jobidOf, hcmd, if_false, run_raise]
      rw [run_bind_error hjobid]
      simp only [hcmd, if_false]

/-! ### The deployment -/

/-- The world after an accepted deployment. -/
def World.deployed (w : World) (args : DeployArgs) (jobid : Option String) : World :=
  { w.afterCall (.deployVirtualMachine args) with
    row := { w.row with jobCreatedId := jobid, state := "approving" }
    trace := (w.afterCall (.deployVirtualMachine args)).trace ++ [.stored .deploy false jobid]
    queue := w.queue ++
      [⟨.vmDeploy, { w.row with jobCreatedId := jobid, state := "approving" }⟩] }

/-- What `deploy` comes to. -/
inductive Deploys (w : World) : Except Raised Bool × World → Prop
  /-- Nothing is sent. -/
  | idle {o : Except Raised Bool} : Deploys w (o, w)
  /-- The deployment is not accepted. -/
  | refused {o : Except Raised Bool} {args : DeployArgs}
      (hanswer : ∀ jobid, w.answer ≠ .job .deploy jobid) :
      Deploys w (o, w.afterCall (.deployVirtualMachine args))
  /-- It is. -/
  | accepted {args : DeployArgs} {jobid : Option String} (hanswer : w.answer = .job .deploy jobid) :
      Deploys w (.ok true, w.deployed args jobid)

theorem run_deploy_answered {w : World} {args : DeployArgs} {jobid : Option String}
    (hpending : w.row.is "pending" = true) (hargs : deployArgs w.catalogue w.row = .ok args)
    (hanswer : w.answer = .job .deploy jobid) :
    run deploy w = (.ok true, w.deployed args jobid) := by
  unfold deploy
  rw [run_bind_ok (run_get w), if_pos hpending, hargs]
  simp only
  rw [run_bind_ok (run_postRequest _ w), hanswer, if_neg (by simp)]
  rfl

/-- **What a deployment comes to.** -/
theorem deploys_deploy (w : World) : Deploys w (run deploy w) := by
  cases hpending : w.row.is "pending" with
  | false =>
    have hrun : run deploy w = (.ok false, w) := by
      unfold deploy
      rw [run_bind_ok (run_get w), hpending]
      rfl
    rw [hrun]
    exact .idle
  | true =>
    cases hargs : deployArgs w.catalogue w.row with
    | error e =>
      have hrun : run deploy w = (.error e, w) := by
        unfold deploy
        rw [run_bind_ok (run_get w), if_pos hpending, hargs]
        rfl
      rw [hrun]
      exact .idle
    | ok args =>
      have hother : (∀ jobid, w.answer ≠ .job .deploy jobid) →
          ∃ o, run deploy w = (o, w.afterCall (.deployVirtualMachine args)) := by
        intro hno
        unfold deploy
        rw [run_bind_ok (run_get w), if_pos hpending, hargs]
        simp only
        rw [run_bind_ok (run_postRequest _ w)]
        rcases hanswer : w.answer with _ | _ | ⟨_ | _ | _ | _, jobid⟩ | _ | _
        case job.deploy => exact absurd hanswer (hno jobid)
        all_goals exact ⟨_, rfl⟩
      by_cases haccepted : ∃ jobid, w.answer = .job .deploy jobid
      · obtain ⟨jobid, hanswer⟩ := haccepted
        rw [run_deploy_answered hpending hargs hanswer]
        exact .accepted hanswer
      · have hno : ∀ jobid, w.answer ≠ .job .deploy jobid := fun jobid hanswer =>
          haccepted ⟨jobid, hanswer⟩
        obtain ⟨o, hrun⟩ := hother hno
        rw [hrun]
        exact .refused hno

/-! ### Invariants -/

/-- An invariant of the changes the methods make; an open deployment job is asked for as
one of them. -/
structure Kept (I : World → Prop) : Prop where
  calls : ∀ w req, I w → I (w.afterCall req)
  writes : ∀ w s, I w → I (w.withState s)
  enqueues : ∀ w job, I w → I { w with queue := w.queue ++ [job] }
  stores : ∀ w cmd forced jobid s, cmd ≠ .deploy → I w → I (w.stored cmd forced jobid s)
  checks : ∀ w job, w.row.jobCreatedId = some job → toBool job = false → I w →
    I (run (checkCreated job) w).2

namespace Kept

variable {I : World → Prop} (h : Kept I)
include h

theorem updateState : Keeps I updateState := by
  refine Keeps.of_state fun w hw => ?_
  have hcases := refreshes_updateState w
  generalize run Portal.updateState w = outcome at hcases
  cases hcases with
  | gone hgone => exact hw
  | unanswered hlive hanswer => exact h.calls w _ hw
  | listed hlive hanswer hs hholds => exact h.writes _ _ (h.calls w _ hw)
  | raises hlive hanswer hrefused => exact h.calls w _ hw

theorem stillThere : Keeps I stillThere := by
  unfold Portal.stillThere
  apply Keeps.bind read_self
  intro row
  apply Keeps.ite (fun _ => Keeps.pure)
  intro _
  apply Keeps.bind h.updateState
  intro _
  apply Keeps.bind read_self
  intro row'
  exact Keeps.ite (fun _ => Keeps.pure) fun _ => Keeps.pure

theorem isCreated : Keeps I isCreated := by
  refine Keeps.of_state fun w hw => ?_
  rw [run_isCreated]
  cases hjob : w.row.jobCreatedId with
  | none => exact hw
  | some job =>
    cases hopen : toBool job with
    | true =>
      simp only [hopen, if_true]
      exact h.stillThere.state hw
    | false =>
      have hasked : I (run (checkCreated job) w).2 := h.checks w job hjob hopen hw
      simp only [hopen, Bool.false_eq_true, if_false]
      rcases hrun : run (checkCreated job) w with ⟨e | finished, w₁⟩
      · rw [hrun] at hasked
        exact hasked
      · rw [hrun] at hasked
        cases finished with
        | true => exact h.stillThere.state hasked
        | false => exact hasked

theorem sendCommand {req : Instance → Request} {cmd : Command} {forced : Bool} {state : String}
    {later : Option Worker} (hcmd : cmd ≠ .deploy) :
    Keeps I (sendCommand req cmd forced state later) := by
  refine Keeps.of_state fun w hw => ?_
  have hcall : I (w.afterCall (req w.row)) := h.calls w _ hw
  rw [run_sendCommand]
  cases w.answer with
  | nil => exact hcall
  | listVirtualMachines vms => exact hcall
  | queryAsyncJobResult jobstatus vm => exact hcall
  | malformed => exact hcall
  | job cmd' jobid =>
    by_cases hsame : cmd' = cmd
    · by_cases hholds : w.holds = true
      · have hstored := h.stores _ cmd forced jobid state hcmd hcall
        simp only [hsame, hholds, if_true]
        cases later with
        | none => exact hstored
        | some worker => exact h.enqueues _ _ hstored
      · simpa only [hsame, hholds, if_true, Bool.false_eq_true, if_false] using hcall
    · simpa only [hsame, if_false] using hcall

theorem performLater {worker : Worker} {snapshot : Instance} :
    Keeps I (performLater worker snapshot) :=
  Triple.modify fun w hw => h.enqueues w _ hw

/-- A guard that asks for one state of a created instance. -/
theorem guard {state : String} :
    Keeps I (do
      let created ← Portal.isCreated
      let row ← self
      pure (created && row.is state)) :=
  Keeps.bind h.isCreated fun _ => Keeps.bind read_self fun _ => Keeps.pure

theorem start : Keeps I start := by
  unfold Portal.start canStart
  apply Keeps.bind h.updateState
  intro _
  apply Keeps.bind h.guard
  intro can
  exact Keeps.ite (fun _ => h.sendCommand (by decide)) fun _ => Keeps.pure

theorem stop (forced : Bool) : Keeps I (stop forced) := by
  unfold Portal.stop canStop
  apply Keeps.bind h.updateState
  intro state
  apply Keeps.ite (fun _ => Keeps.pure)
  intro _
  apply Keeps.ite (fun _ => h.sendCommand (by decide))
  intro _
  apply Keeps.bind h.guard
  intro can
  exact Keeps.ite (fun _ => h.sendCommand (by decide)) fun _ => Keeps.pure

theorem destroyVm : Keeps I destroyVm := by
  unfold Portal.destroyVm canDestroy
  apply Keeps.bind h.updateState
  intro state
  apply Keeps.ite (fun _ => Keeps.pure)
  intro _
  refine Keeps.bind (Keeps.bind read_self fun row => ?_) fun can => ?_
  · exact Keeps.ite (fun _ => Keeps.pure) fun _ => h.isCreated
  · exact Keeps.ite (fun _ => h.sendCommand (by decide)) fun _ => Keeps.pure

theorem mark (s : String) : Keeps I (updateAttributes fun r => some { r with state := s }) := by
  refine triple_updateAttributes (fun w row hw hrow => ?_) fun w hw => hw
  obtain rfl := Option.some.inj hrow
  exact h.writes w s hw

/-- **Every method but `deploy`**, and every worker, keeps the invariant; those that switch
to SPICE also take answers of the script and write the address. -/
theorem run {op : Op} (hop : op ≠ .deploy)
    (hscripts : ∀ w ssh, I w → I { w with ssh := ssh })
    (haddresses : ∀ w hostname port, I w →
      I { w with row := { w.row with hostname := hostname, port := port } }) :
    Keeps I op.run := by
  have hspice := keeps_vncToSpiceProtocol h.isCreated h.updateState hscripts haddresses
  cases op with
  | deploy => exact absurd rfl hop
  | updateState => exact Keeps.bind h.updateState fun _ => Keeps.pure
  | isCreated => exact Keeps.bind h.isCreated fun _ => Keeps.pure
  | start => exact Keeps.bind h.start fun _ => Keeps.pure
  | stop forced => exact Keeps.bind (h.stop forced) fun _ => Keeps.pure
  | destroyVm => exact Keeps.bind h.destroyVm fun _ => Keeps.pure
  | vncToSpiceProtocol => exact Keeps.bind hspice fun _ => Keeps.pure
  | perform job =>
    refine keeps_perform h.isCreated h.updateState hspice h.performLater ?_ fun s _ => h.mark s
    exact triple_postRequest fun w hw => h.calls w _ hw

end Kept

end BkPlatform.Portal
