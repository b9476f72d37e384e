import BkPlatform.Portal.Binding
import BkPlatform.Portal.Commands
import BkPlatform.Portal.Destroyed

/-!
# An outage of the cloud

`postRequest` answers nil when the cloud cannot be reached.  Most callers take that for
"not yet" and leave everything as it is.  Two do not: `VNCToSPICEProtocol` calls `downcase`
on the `false` that `updateState` returns, and `VMDestroy` takes a failed query for a failed
job.

A computation of the first kind idles: it returns, and nothing has changed but the log.

## Main definitions

* `World.out` — every call fails.
* `Idles` — a computation returns a value and changes nothing.
* `Unmoved` — an operation returns, changes nothing and goes on waiting.
* `Unharmed` — the condition on the row.

## Main results

* `unmoved_iff` — **the operations that an outage leaves unmoved.**
-/

namespace BkPlatform.Portal

open Eff RubyString

/-- Every call fails. -/
def World.out (w : World) : Prop := ∀ reply ∈ w.replies, reply = .nil

/-- The machine is there, for `isCreated` with no other answer than the row. -/
def Instance.there (r : Instance) : Bool := r.jobCreatedId.any toBool && !r.going

/-! ### The property -/

/-- The worker waits for its job: for a deployment until that is known to be done, for the
others as long as they are enqueued. -/
def Job.waits (r : Instance) (job : Job) : Bool :=
  match job.worker with
  | .vmDeploy => !r.jobCreatedId.any toBool && job.snapshot.state != "error"
  | .vmStart => true
  | .vmStop => true
  | .vmDestroy => true

/-- The operation returns, leaves the row as it is, enqueues nothing but itself, and does
that if it is a worker that waits. -/
structure Unmoved (w : World) (op : Op) : Prop where
  returns : (run op.run w).1 = .ok ()
  row : (run op.run w).2.row = w.row
  jobs : (run op.run w).2.queue = w.queue ∨
    ∃ job, op = .perform job ∧ (run op.run w).2.queue = w.queue ++ [job]
  waiting : ∀ job, op = .perform job → job.waits w.row = true →
    (run op.run w).2.queue = w.queue ++ [job]

/-- What an outage leaves unmoved: a deployment whose template and offering are found, the
switch to SPICE unless the machine is there, and all but `VMDestroy` of the rest. -/
def Unharmed (w : World) : Op → Prop
  | .deploy => w.row.is "pending" = true → (deployArgs w.catalogue w.row).isOk = true
  | .vncToSpiceProtocol => w.row.there = false
  | .perform ⟨.vmDeploy, _⟩ => w.row.there = false
  | .perform ⟨.vmDestroy, _⟩ => False
  | _ => True

/-! ### Idling -/

/-- Nothing has changed but the log. -/
structure Still (w w' : World) : Prop where
  row : w'.row = w.row
  queue : w'.queue = w.queue
  out : w'.out

theorem Still.refl {w : World} (hout : w.out) : Still w w := ⟨rfl, rfl, hout⟩

theorem Still.trans {w w₁ w₂ : World} (h : Still w w₁) (h' : Still w₁ w₂) : Still w w₂ :=
  ⟨h'.row.trans h.row, h'.queue.trans h.queue, h'.out⟩

/-- The computation returns a value and changes nothing. -/
def Idles {α : Type} (x : Action α) (w : World) (a : α) : Prop :=
  ∃ w', run x w = (.ok a, w') ∧ Still w w'

section Idling

variable {α β : Type} {w : World}

theorem World.out.answer (hout : w.out) : w.answer = .nil := by
  unfold World.answer
  cases hreplies : w.replies with
  | nil => rfl
  | cons reply rest => exact hout reply (by simp [hreplies])

theorem World.out.afterCall (hout : w.out) (req : Request) : (w.afterCall req).out :=
  fun reply hreply => hout reply (List.mem_of_mem_tail hreply)

theorem idles_pure (hout : w.out) (a : α) : Idles (pure a) w a := ⟨w, rfl, .refl hout⟩

theorem idles_self (hout : w.out) : Idles self w w.row := ⟨w, rfl, .refl hout⟩

theorem Idles.bind {x : Action α} {f : α → Action β} {a : α} {b : β} (hx : Idles x w a)
    (hf : ∀ w', Still w w' → Idles (f a) w' b) : Idles (x >>= f) w b := by
  obtain ⟨w₁, hrun, hstill⟩ := hx
  obtain ⟨w₂, hrun', hstill'⟩ := hf w₁ hstill
  exact ⟨w₂, (run_bind_ok hrun).trans hrun', hstill.trans hstill'⟩

theorem idles_postRequest (hout : w.out) (req : Request) : Idles (postRequest req) w .nil := by
  refine ⟨w.afterCall req, ?_, rfl, rfl, hout.afterCall req⟩
  rw [run_postRequest, hout.answer]

theorem idles_updateState (hout : w.out) : Idles updateState w none := by
  have hcases := refreshes_updateState w
  unfold Idles
  generalize run updateState w = outcome at hcases
  cases hcases with
  | gone hgone => exact ⟨w, rfl, .refl hout⟩
  | unanswered hlive hanswer => exact ⟨_, rfl, rfl, rfl, hout.afterCall _⟩
  | listed hlive hanswer hs hholds =>
    rw [hout.answer] at hanswer
    simp at hanswer
  | raises hlive hanswer hrefused => exact absurd hout.answer hanswer

theorem idles_stillThere (hout : w.out) : Idles stillThere w (!w.row.going) := by
  obtain ⟨w₁, hrun, hstill⟩ := idles_updateState hout
  unfold Idles
  rw [run_stillThere, hrun]
  cases hgoing : w.row.going with
  | true => exact ⟨w, rfl, .refl hout⟩
  | false =>
    refine ⟨w₁, ?_, hstill⟩
    simp only [Bool.false_eq_true, if_false, hstill.row, hgoing]

theorem idles_checkCreated (hout : w.out) (job : String) : Idles (checkCreated job) w false := by
  refine ⟨w.afterCall (.queryAsyncJobResult (some job)), ?_, rfl, rfl, hout.afterCall _⟩
  rw [run_checkCreated, hout.answer]

theorem idles_isCreated (hout : w.out) : Idles isCreated w w.row.there := by
  unfold isCreated
  refine (idles_self hout).bind fun w₁ hstill => ?_
  unfold Instance.there
  cases hjob : w.row.jobCreatedId with
  | none => exact idles_pure hstill.out false
  | some job =>
    cases hopen : toBool job with
    | true =>
      simp only [hopen, if_true, Option.any_some, Bool.true_and, ← hstill.row]
      exact idles_stillThere hstill.out
    | false =>
      simp only [hopen, Bool.false_eq_true, if_false, Option.any_some, Bool.false_and]
      exact (idles_checkCreated hstill.out job).bind fun w₂ hstill₂ => idles_pure hstill₂.out false

theorem idles_sendCommand (hout : w.out) {req : Instance → Request} {cmd : Command}
    {forced : Bool} {state : String} {later : Option Worker} :
    Idles (sendCommand req cmd forced state later) w false := by
  refine ⟨w.afterCall (req w.row), ?_, rfl, rfl, hout.afterCall _⟩
  rw [run_sendCommand, hout.answer]

/-- The last part of a command: sent or not, nothing comes of it. -/
theorem idles_command (hout : w.out) (can : Bool) {req : Instance → Request} {cmd : Command}
    {forced : Bool} {state : String} {later : Option Worker} :
    Idles (if can then sendCommand req cmd forced state later else pure false) w false := by
  cases can with
  | true => exact idles_sendCommand hout
  | false => exact idles_pure hout false

theorem idles_canStart (hout : w.out) :
    Idles canStart w (w.row.there && w.row.is "stopped") := by
  unfold canStart
  refine (idles_isCreated hout).bind fun w₁ h₁ => (idles_self h₁.out).bind fun w₂ h₂ => ?_
  rw [h₁.row]
  exact idles_pure h₂.out _

theorem idles_start (hout : w.out) : Idles start w false := by
  unfold start
  refine (idles_updateState hout).bind fun w₁ h₁ => ?_
  exact (idles_canStart h₁.out).bind fun w₂ h₂ => idles_command h₂.out _

theorem idles_stop (hout : w.out) (forced : Bool) : Idles (stop forced) w false := by
  unfold stop
  exact (idles_updateState hout).bind fun w₁ h₁ => idles_pure h₁.out false

theorem idles_destroyVm (hout : w.out) : Idles destroyVm w false := by
  unfold destroyVm
  exact (idles_updateState hout).bind fun w₁ h₁ => idles_pure h₁.out false

/-- The switch to SPICE of a machine that is not there. -/
theorem idles_vncToSpiceProtocol (hout : w.out) (hthere : w.row.there = false) :
    Idles vncToSpiceProtocol w false := by
  have hfalse : Idles isCreated w false := hthere ▸ idles_isCreated hout
  unfold vncToSpiceProtocol
  exact hfalse.bind fun w₁ h₁ => idles_pure h₁.out false

/-- `false.downcase`. -/
theorem vncToSpiceProtocol_raises (hout : w.out) (hthere : w.row.there = true) :
    (run vncToSpiceProtocol w).1 = .error .noMethodError := by
  obtain ⟨w₁, hrun, hstill⟩ := idles_isCreated hout
  obtain ⟨w₂, hrun₂, -⟩ := idles_updateState hstill.out
  rw [hthere] at hrun
  unfold vncToSpiceProtocol
  rw [run_bind_ok hrun, if_neg (by decide), run_bind_ok hrun₂]
  rfl

/-- A pending row is not deployed. -/
theorem idles_deploy (hout : w.out)
    (hargs : w.row.is "pending" = true → (deployArgs w.catalogue w.row).isOk = true) :
    Idles deploy w false := by
  unfold deploy
  have hget : Idles (Eff.get : Action World) w w := ⟨w, rfl, .refl hout⟩
  refine hget.bind fun w₁ h₁ => ?_
  cases hpending : w.row.is "pending" with
  | false => exact idles_pure h₁.out false
  | true =>
    rw [if_pos rfl]
    cases hrequest : deployArgs w.catalogue w.row with
    | error e =>
      have hok := hargs hpending
      rw [hrequest] at hok
      exact absurd hok (by simp [Except.isOk, Except.toBool])
    | ok args => exact (idles_postRequest h₁.out _).bind fun w₂ h₂ => idles_pure h₂.out false

/-- Without its template or offering a pending row raises before anything is asked. -/
theorem deploy_raises (hpending : w.row.is "pending" = true)
    (hargs : (deployArgs w.catalogue w.row).isOk = false) : ∃ e, (run deploy w).1 = .error e := by
  unfold deploy
  rw [run_bind_ok (run_get w), if_pos hpending]
  cases hrequest : deployArgs w.catalogue w.row with
  | error e => exact ⟨e, rfl⟩
  | ok args =>
    rw [hrequest] at hargs
    exact absurd hargs (by simp [Except.isOk, Except.toBool])

end Idling

/-! ### The operations -/

section Operations

variable {w : World}

/-- A method that idles. -/
theorem unmoved_of_idles {α : Type} {x : Action α} {a : α} {op : Op} (hidles : Idles x w a)
    (hop : op.run = do let _ ← x) (hmethod : ∀ job, op ≠ .perform job) : Unmoved w op := by
  obtain ⟨w₁, hrun, hstill⟩ := hidles
  have hdone : run op.run w = (.ok (), w₁) := by
    rw [hop, run_bind_ok hrun]
    rfl
  constructor
  · rw [hdone]
  · rw [hdone, hstill.row]
  · rw [hdone]
    exact Or.inl hstill.queue
  · exact fun job hjob => absurd hjob (hmethod job)

/-- A worker that enqueues itself again, with nothing else done. -/
theorem unmoved_of_requeued {job : Job} {w₁ : World} (hstill : Still w w₁)
    (hrun : run (perform job) w = run (performLater job.worker job.snapshot) w₁) :
    Unmoved w (.perform job) := by
  have hdone : run (Op.run (.perform job)) w =
      (.ok (), { w₁ with queue := w₁.queue ++ [job] }) := hrun
  have hqueue : (run (Op.run (.perform job)) w).2.queue = w.queue ++ [job] := by
    rw [hdone, ← hstill.queue]
  constructor
  · rw [hdone]
  · rw [hdone]
    exact hstill.row
  · exact Or.inr ⟨job, rfl, hqueue⟩
  · intro job' hjob' _
    obtain rfl := Op.perform.inj hjob'
    exact hqueue

/-- An operation that raises is not unmoved. -/
theorem not_unmoved_of_raises {op : Op} {e : Raised} (hrun : (run op.run w).1 = .error e) :
    ¬ Unmoved w op := by
  intro h
  have hreturns := h.returns
  rw [hrun] at hreturns
  simp at hreturns

theorem raises_discard {α : Type} {x : Action α} {e : Raised} (hrun : (run x w).1 = .error e) :
    (run (do let _ ← x) w).1 = .error e := by
  rcases hx : run x w with ⟨e' | a, w₁⟩
  · rw [hx] at hrun
    obtain rfl := Except.error.inj hrun
    rw [run_bind_error hx]
  · rw [hx] at hrun
    simp at hrun

/-- `VMDeploy` waits until the machine is there, and then fails with the switch to SPICE. -/
theorem unmoved_vmDeploy (hout : w.out) (snapshot : Instance) :
    Unmoved w (.perform ⟨.vmDeploy, snapshot⟩) ↔ w.row.there = false := by
  obtain ⟨w₁, hrun, hstill⟩ := idles_isCreated hout
  have hbegin : run (perform ⟨.vmDeploy, snapshot⟩) w =
      run (if w.row.there = false && snapshot.state ≠ "error" then
        performLater .vmDeploy snapshot else do let _ ← vncToSpiceProtocol) w₁ :=
    run_bind_ok hrun
  cases hthere : w.row.there with
  | true =>
    refine iff_of_false ?_ (by decide)
    refine @not_unmoved_of_raises _ _ .noMethodError ?_
    show (run (perform ⟨.vmDeploy, snapshot⟩) w).1 = _
    rw [hbegin, hthere, if_neg (by simp)]
    exact raises_discard (vncToSpiceProtocol_raises hstill.out (by rw [hstill.row, hthere]))
  | false =>
    refine iff_of_true ?_ rfl
    rw [hthere] at hbegin
    by_cases herror : snapshot.state = "error"
    · -- a snapshot in error is not waited for, and there is nothing to switch
      obtain ⟨w₂, hrun₂, hstill₂⟩ :=
        idles_vncToSpiceProtocol hstill.out (by rw [hstill.row, hthere])
      have hdone : run (Op.run (.perform ⟨.vmDeploy, snapshot⟩)) w = (.ok (), w₂) := by
        show run (perform ⟨.vmDeploy, snapshot⟩) w = _
        rw [hbegin, if_neg (by simp [herror]), run_bind_ok hrun₂]
        rfl
      have hafter := hstill.trans hstill₂
      constructor
      · rw [hdone]
      · rw [hdone, hafter.row]
      · rw [hdone]
        exact Or.inl hafter.queue
      · intro job hjob hwaits
        obtain rfl := Op.perform.inj hjob
        simp [Job.waits, herror] at hwaits
    · refine unmoved_of_requeued hstill ?_
      rw [hbegin, if_pos (by simp [herror])]

/-- The workers that take a failed refresh for a machine that is not there yet. -/
theorem unmoved_poller (hout : w.out) {worker : Worker} {snapshot : Instance}
    {rest : String → Action Unit}
    (hperform : perform ⟨worker, snapshot⟩ = (do
      let state ← updateState
      match state with
      | none => performLater worker snapshot
      | some s => rest s)) : Unmoved w (.perform ⟨worker, snapshot⟩) := by
  obtain ⟨w₁, hrun, hstill⟩ := idles_updateState hout
  refine unmoved_of_requeued hstill ?_
  rw [hperform, run_bind_ok hrun]

/-- `VMDestroy` gives up. -/
theorem not_unmoved_vmDestroy (hout : w.out) (snapshot : Instance) :
    ¬ Unmoved w (.perform ⟨.vmDestroy, snapshot⟩) := by
  intro h
  have hqueue := h.waiting ⟨.vmDestroy, snapshot⟩ rfl rfl
  have hrun : run (Op.run (.perform ⟨.vmDestroy, snapshot⟩)) w =
      run (updateAttributes fun r => some { r with state := "Error" })
        (w.afterCall (.queryAsyncJobResult snapshot.jobId)) := by
    show run (vmDestroy snapshot) w = _
    unfold vmDestroy
    rw [run_bind_ok (run_postRequest _ w), hout.answer]
  rw [hrun, run_writeState, World.holds_afterCall] at hqueue
  by_cases hholds : w.holds = true
  · simp [hholds] at hqueue
  · simp [hholds] at hqueue

/-- **The operations that an outage leaves unmoved**, for every row and every worker. -/
theorem unmoved_iff (hout : w.out) (op : Op) : Unmoved w op ↔ Unharmed w op := by
  cases op with
  | deploy =>
    constructor
    · intro h hpending
      by_contra hargs
      obtain ⟨e, he⟩ := deploy_raises hpending (Bool.not_eq_true _ ▸ hargs)
      have hraises : (run (Op.run .deploy) w).1 = .error e := raises_discard he
      exact not_unmoved_of_raises hraises h
    · intro hargs
      exact unmoved_of_idles (idles_deploy hout hargs) rfl (by simp)
  | updateState =>
    exact iff_of_true (unmoved_of_idles (idles_updateState hout) rfl (by simp)) trivial
  | isCreated =>
    exact iff_of_true (unmoved_of_idles (idles_isCreated hout) rfl (by simp)) trivial
  | start =>
    exact iff_of_true (unmoved_of_idles (idles_start hout) rfl (by simp)) trivial
  | stop forced =>
    exact iff_of_true (unmoved_of_idles (idles_stop hout forced) rfl (by simp)) trivial
  | destroyVm =>
    exact iff_of_true (unmoved_of_idles (idles_destroyVm hout) rfl (by simp)) trivial
  | vncToSpiceProtocol =>
    cases hthere : w.row.there with
    | true =>
      have hraises : (run (Op.run .vncToSpiceProtocol) w).1 = .error .noMethodError :=
        raises_discard (vncToSpiceProtocol_raises hout hthere)
      exact iff_of_false (not_unmoved_of_raises hraises) (by simp [Unharmed, hthere])
    | false =>
      exact iff_of_true (unmoved_of_idles (idles_vncToSpiceProtocol hout hthere) rfl (by simp))
        hthere
  | perform job =>
    obtain ⟨worker, snapshot⟩ := job
    cases worker with
    | vmDeploy => exact unmoved_vmDeploy hout snapshot
    | vmStart => exact iff_of_true (unmoved_poller hout rfl) trivial
    | vmStop => exact iff_of_true (unmoved_poller hout rfl) trivial
    | vmDestroy => exact iff_of_false (not_unmoved_vmDestroy hout snapshot) id

/-- A pending row is left alone. -/
theorem unmoved_pendingWorld : Unmoved pendingWorld .deploy :=
  (unmoved_iff (by simp [World.out, pendingWorld]) .deploy).mpr fun _ => rfl

/-- The switch to SPICE of a running machine raises, and `VMDestroy` ends. -/
theorem moved_by_outage :
    ¬ Unmoved runningWorld .vncToSpiceProtocol ∧
      ¬ Unmoved runningWorld (.perform ⟨.vmDestroy, runningWorld.row⟩) := by
  constructor
  · intro h
    exact absurd h.returns (by decide)
  · intro h
    exact absurd (h.waiting ⟨.vmDestroy, runningWorld.row⟩ rfl rfl) (by decide)

end Operations

end BkPlatform.Portal
