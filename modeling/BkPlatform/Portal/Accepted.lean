import BkPlatform.Lib.Account
import BkPlatform.Portal.Binding
import BkPlatform.Portal.Commands
import BkPlatform.Portal.Waiting
import Mathlib.Data.List.Perm.Basic

/-!
# A worker for every accepted command

`deploy`, `start`, `stop` and `destroy_vm` send a command, write the job of one that is
accepted and enqueue the worker that waits for it; a worker enqueues itself again, is put
back by the queue when it raises, or has ended.  Between the job that is written and the job
that is enqueued nothing can raise, and a worker enqueues itself as the last thing it does.
So the queue keeps account of the commands: none has two workers, and none is left without
one, but for those that are lost before they are written.  A command that the cloud accepts
while the row does not pass its validations is: `update_attributes!` raises.

## Main definitions

* `Event.accepts` — the cloud accepts a command that a worker waits for.
* `again` — a run enqueues itself.
* `World.waiting`, `World.accepted`, `endedIn`, `lostIn` — the account of a worker.

## Main results

* `queue_perform` — the queue after a run of a worker.
* `workers_conserved` — **what waits, what has ended and what was lost make up what was
  accepted.**
* `one_deployment_worker` — **a row has one `VMDeploy` in its life.**
-/

namespace BkPlatform.Portal

open Eff RubyString Account Log

/-! ### The accounts -/

/-- The worker that waits for a command. -/
def Command.waiter : Command → Worker
  | .deploy => .vmDeploy
  | .start => .vmStart
  | .stop => .vmStop
  | .destroy => .vmDestroy

/-- The worker that waits for a stored job; a forced stop counts as done. -/
def Event.waiter : Event → Option Worker
  | .stored cmd forced _ => if forced then none else some cmd.waiter
  | .call _ _ => none

/-- The worker that waits for the command of a request, if it is accepted. -/
def Request.waiter : Request → Option Worker
  | .stopVirtualMachine _ true => none
  | req => req.command.map Command.waiter

/-- The cloud accepts a command that the worker waits for. -/
def Event.accepts (k : Worker) : Event → Bool
  | .call req (.job cmd _) => req.command == some cmd && req.waiter == some k
  | _ => false

/-- The jobs of a worker in the queue. -/
def World.waiting (k : Worker) (w : World) : ℕ := w.queue.countP fun job => job.worker == k

/-- The commands accepted so far that a worker waits for. -/
def World.accepted (k : Worker) (w : World) : ℕ := w.trace.countP (Event.accepts k)

/-- The jobs written so far that a worker waits for. -/
def World.written (k : Worker) (w : World) : ℕ := w.trace.countP fun e => e.waiter == some k

/-- The answer reports that the job is still pending, as `VMDestroy` reads it. -/
def Reply.stillPending : Reply → Bool
  | .queryAsyncJobResult (.int n) _ => n == 0
  | _ => false

/-- `isCreated` answers no. -/
def World.notCreated (w : World) : Bool :=
  match (run isCreated w).1 with
  | .ok created => !created
  | .error _ => false

/-- A run of the job enqueues it again. -/
def again (job : Job) (w : World) : Bool :=
  match job.worker with
  | .vmDeploy => w.notCreated && job.snapshot.state != "error"
  | .vmStart => goesOn "starting" w
  | .vmStop => goesOn "stopping" w
  | .vmDestroy => w.answer.stillPending

/-- A run of the job raises. -/
def raises (job : Job) (w : World) : Bool :=
  match (run (perform job) w).1 with
  | .ok _ => false
  | .error _ => true

/-- The turn is the last one of a job of the worker: the run does not enqueue it again, and
is not put back for having raised. -/
def Ends (k : Worker) (w : World) : QueueTurn → Bool
  | .call _ => false
  | .work place replies ssh retried =>
    w.queue[place]?.any fun job =>
      job.worker == k && !again job (w.taken place replies ssh) &&
        !(raises job (w.taken place replies ssh) && retried)

/-- What is accepted for the worker is lost: the row does not pass its validations, and its
job is not written.  A deployment is written without them. -/
def World.loses (k : Worker) (w : World) : Bool := !w.holds && k != .vmDeploy

/-- The number of jobs of the worker that have ended in a run. -/
def ended (k : Worker) (w : World) (turns : List QueueTurn) : ℕ :=
  spent queueTurn (fun w a => if Ends k w a then 1 else 0) w turns

/-! ### The runs of the workers -/

/-- What neither the answers nor the row matter to, as long as it passes its validations as
before: the polls and their writes keep it. -/
structure Polled (I : World → Prop) : Prop where
  calls : ∀ w req, req.command = none → I w → I (w.afterCall req)
  writes : ∀ w row, World.holds { w with row := row } = w.holds → I w → I { w with row := row }
  scripts : ∀ w ssh, I w → I { w with ssh := ssh }

section Polls

variable {I : World → Prop}

theorem Polled.updateState (h : Polled I) : Keeps I updateState := by
  refine Keeps.of_state fun w hw => ?_
  have hcases := refreshes_updateState w
  generalize run Portal.updateState w = outcome at hcases
  cases hcases with
  | gone hgone => exact hw
  | unanswered hlive hanswer => exact h.calls w _ rfl hw
  | listed hlive hanswer hs hholds => exact h.writes _ _ rfl (h.calls w _ rfl hw)
  | raises hlive hanswer hrefused => exact h.calls w _ rfl hw

theorem Polled.stillThere (h : Polled I) : Keeps I stillThere := by
  unfold Portal.stillThere
  apply Triple.bind read_self
  intro row
  apply Keeps.ite (fun _ => Keeps.pure)
  intro _
  apply Keeps.bind h.updateState
  intro _
  exact Triple.bind read_self fun _ => Keeps.ite (fun _ => Keeps.pure) fun _ => Keeps.pure

theorem Polled.checkCreated (h : Polled I) (job : String) : Keeps I (checkCreated job) := by
  refine Keeps.of_state fun w hw => ?_
  have hcases := asks_checkCreated job w
  generalize run (Portal.checkCreated job) w = outcome at hcases
  cases hcases with
  | unfinished => exact h.calls w _ rfl hw
  | failed hholds => exact h.writes _ _ rfl (h.calls w _ rfl hw)
  | finished hanswer hdone hrow hholds =>
    obtain ⟨s, -, rfl⟩ := Option.map_eq_some_iff.mp hrow
    exact h.writes _ _ rfl (h.calls w _ rfl hw)
  | raises => exact h.calls w _ rfl hw

theorem Polled.isCreated (h : Polled I) : Keeps I isCreated := by
  unfold Portal.isCreated
  apply Triple.bind read_self
  intro row
  cases row.jobCreatedId with
  | none => exact Keeps.pure
  | some job =>
    apply Keeps.ite (fun _ => h.stillThere)
    intro _
    apply Keeps.bind (h.checkCreated job)
    intro finished
    exact Keeps.ite (fun _ => h.stillThere) fun _ => Keeps.pure

theorem Polled.vncToSpiceProtocol (h : Polled I) : Keeps I vncToSpiceProtocol :=
  keeps_vncToSpiceProtocol h.isCreated h.updateState h.scripts fun w _ _ => h.writes w _ rfl

/-- What a worker marks the row with. -/
theorem Polled.mark (h : Polled I) (s : String) :
    Keeps I (updateAttributes fun r => some { r with state := s }) := by
  refine triple_updateAttributes (fun w row hw hrow => ?_) fun _ hw => hw
  obtain rfl := Option.some.inj hrow
  exact h.writes w _ rfl hw

end Polls

/-- The queue is none of their business. -/
theorem polled_queue (queue : List Job) : Polled fun w => w.queue = queue :=
  ⟨fun _ _ _ h => h, fun _ _ _ h => h, fun _ _ h => h⟩

/-- No call writes a job. -/
theorem written_afterCall (k : Worker) (w : World) (req : Request) :
    (w.afterCall req).written k = w.written k := by
  simp [World.written, World.afterCall, Event.waiter]

theorem accepted_afterCall (k : Worker) (w : World) (req : Request) :
    (w.afterCall req).accepted k =
      w.accepted k + if Event.accepts k (.call req w.answer) then 1 else 0 := by
  rw [World.accepted, World.trace_afterCall, List.countP_append, List.countP_singleton]
  rfl

/-- A request that is no command. -/
theorem accepts_query {k : Worker} {req : Request} (hreq : req.command = none) (reply : Reply) :
    Event.accepts k (.call req reply) = false := by
  cases reply <;> simp [Event.accepts, hreq]

/-- Nor are the commands that have been accepted and written. -/
theorem polled_counts (k : Worker) (written accepted : ℕ) :
    Polled fun w => w.written k = written ∧ w.accepted k = accepted := by
  refine ⟨fun w req hreq h => ?_, fun _ _ _ h => h, fun _ _ h => h⟩
  rw [written_afterCall, accepted_afterCall, accepts_query hreq]
  exact h

/-- The queue after a run of a worker that polls with `isCreated`. -/
theorem queue_vmDeploy (snapshot : Instance) (w : World) :
    (run (vmDeploy snapshot) w).2.queue =
      if w.notCreated && snapshot.state != "error" then w.queue ++ [⟨.vmDeploy, snapshot⟩]
      else w.queue := by
  have hpoll : (run isCreated w).2.queue = w.queue := (polled_queue w.queue).isCreated.state rfl
  unfold vmDeploy World.notCreated
  rw [run_bind]
  rcases hrun : run isCreated w with ⟨e | created, w'⟩
  · rw [hrun] at hpoll
    exact hpoll
  · rw [hrun] at hpoll
    by_cases hagain : (created = false && snapshot.state ≠ "error") = true
    · simp only [hagain, if_true]
      have hcond : (!created && snapshot.state != "error") = true := by simpa using hagain
      rw [if_pos hcond, ← hpoll]
      rfl
    · have hcond : ¬ (!created && snapshot.state != "error") = true := by simpa using hagain
      simp only [hagain]
      rw [if_neg hcond]
      exact (queue_vncToSpiceProtocol w').trans hpoll

/-- The queue after a run of `VMDestroy`. -/
theorem queue_vmDestroy (snapshot : Instance) (w : World) :
    (run (vmDestroy snapshot) w).2.queue =
      if w.answer.stillPending then w.queue ++ [⟨.vmDestroy, snapshot⟩] else w.queue := by
  have hmark : ∀ (s : String) (w' : World), w'.queue = w.queue →
      (run (updateAttributes fun r => some { r with state := s }) w').2.queue = w.queue :=
    fun s w' hw' => ((polled_queue w.queue).mark s).state hw'
  unfold vmDestroy
  rw [run_bind_ok (run_postRequest _ w)]
  rcases hanswer : w.answer with _ | _ | _ | ⟨s | n | _, vm⟩ | _
  case queryAsyncJobResult.int =>
    simp only [Reply.stillPending, JobStatus.int.injEq]
    by_cases hfailed : n = 2
    · subst hfailed
      exact hmark "Error" _ rfl
    · by_cases hpending : n = 0
      · subst hpending
        rfl
      · by_cases hdone : n = 1
        · subst hdone
          exact hmark "Destroyed" _ rfl
        · simp [hfailed, hpending, hdone]
  case nil => exact hmark "Error" _ rfl
  all_goals rfl

/-- **The queue after a run of a worker.** -/
theorem queue_perform (job : Job) (w : World) :
    (run (perform job) w).2.queue = if again job w then w.queue ++ [job] else w.queue := by
  obtain ⟨worker, snapshot⟩ := job
  cases worker with
  | vmDeploy => exact queue_vmDeploy snapshot w
  | vmStart => exact queue_poller rfl w
  | vmStop => exact queue_poller rfl w
  | vmDestroy => exact queue_vmDestroy snapshot w

/-- A run enqueues its job as the last thing it does, so that one which raises has not. -/
theorem quiet_perform (job : Job) (queue : List Job) :
    Triple (fun w => w.queue = queue) (perform job) (fun _ _ => True)
      (fun w => w.queue = queue) := by
  have hpolls := polled_queue queue
  have hspice : Triple (fun w => w.queue = queue) (do let _ ← vncToSpiceProtocol)
      (fun _ _ => True) (fun w => w.queue = queue) :=
    Triple.bind hpolls.vncToSpiceProtocol fun _ => Triple.pure fun _ _ => trivial
  have hlater : ∀ worker snapshot, Triple (fun w => w.queue = queue)
      (performLater worker snapshot) (fun _ _ => True) (fun w => w.queue = queue) :=
    fun worker snapshot => triple_performLater fun _ _ _ => trivial
  have hdone : Triple (fun w => w.queue = queue) (pure () : Action Unit) (fun _ _ => True)
      (fun w => w.queue = queue) := Triple.pure fun _ _ => trivial
  have hmark : ∀ s, Triple (fun w => w.queue = queue)
      (updateAttributes fun r => some { r with state := s }) (fun _ _ => True)
      (fun w => w.queue = queue) := fun s => (hpolls.mark s).post fun _ _ _ => trivial
  obtain ⟨worker, snapshot⟩ := job
  cases worker with
  | vmDeploy =>
    show Triple _ (vmDeploy snapshot) _ _
    unfold vmDeploy
    exact Triple.bind hpolls.isCreated fun _ => Triple.ite (fun _ => hlater _ _) fun _ => hspice
  | vmStart =>
    show Triple _ (vmStart snapshot) _ _
    unfold vmStart
    apply Triple.bind hpolls.updateState
    intro state
    cases state with
    | none => exact hlater _ _
    | some s =>
      apply Triple.ite (fun _ => hlater _ _)
      intro _
      exact Triple.ite (fun _ => hspice) fun _ => hdone
  | vmStop =>
    show Triple _ (vmStop snapshot) _ _
    unfold vmStop
    apply Triple.bind hpolls.updateState
    intro state
    cases state with
    | none => exact hlater _ _
    | some s => exact Triple.ite (fun _ => hlater _ _) fun _ => hdone
  | vmDestroy =>
    show Triple _ (vmDestroy snapshot) _ _
    unfold vmDestroy
    refine Triple.bind (M := fun _ w => w.queue = queue) (triple_postRequest fun w hw => hw)
      fun res => ?_
    split
    · exact hmark _
    · apply Triple.ite (fun _ => hmark _)
      intro _
      apply Triple.ite (fun _ => hlater _ _)
      intro _
      exact Triple.ite (fun _ => hmark _) fun _ => hdone
    · exact Triple.raise fun _ hw => hw

theorem not_again_of_raises {job : Job} {w : World} (hraises : raises job w = true) :
    again job w = false := by
  have hqueue := quiet_perform job w.queue w rfl
  have hafter := queue_perform job w
  unfold raises at hraises
  rcases hrun : run (perform job) w with ⟨e | u, w'⟩
  · rw [hrun] at hqueue hafter
    by_contra hagain
    rw [if_pos (by simpa using hagain), show w'.queue = w.queue from hqueue] at hafter
    exact absurd hafter (by simp)
  · rw [hrun] at hraises
    exact absurd hraises Bool.false_ne_true

/-- A run of a worker polls, and enqueues itself. -/
theorem Polled.perform {I : World → Prop} (h : Polled I)
    (hqueue : ∀ w queue, I w → I { w with queue := queue }) (job : Job) :
    Keeps I (perform job) := by
  refine keeps_perform h.isCreated h.updateState h.vncToSpiceProtocol
    (triple_performLater fun w queue hw => hqueue w queue hw) (triple_postRequest fun w hw => ?_)
    fun s _ => h.mark s
  exact h.calls w _ rfl hw

/-! ### The commands -/

section Commands

variable {k : Worker} {w₀ : World}

/-- Since `w₀`, every job that was written has got its worker, and every command that was
accepted has been written or is lost. -/
structure Settled (k : Worker) (w₀ w : World) : Prop where
  holds : w.holds = w₀.holds
  queue : w.waiting k + w₀.written k = w₀.waiting k + w.written k
  grows : w₀.accepted k ≤ w.accepted k
  log : w.written k + (if w₀.loses k then w.accepted k - w₀.accepted k else 0) +
    w₀.accepted k = w₀.written k + w.accepted k

theorem settled_refl (k : Worker) (w : World) : Settled k w w where
  holds := rfl
  queue := rfl
  grows := Nat.le_refl _
  log := by simp

/-- A call that accepts nothing. -/
theorem Settled.call {w : World} (h : Settled k w₀ w) {req : Request}
    (hno : Event.accepts k (.call req w.answer) = false) : Settled k w₀ (w.afterCall req) := by
  have haccepted : (w.afterCall req).accepted k = w.accepted k := by
    rw [accepted_afterCall, hno]
    rfl
  refine ⟨h.holds, ?_, ?_, ?_⟩
  · rw [written_afterCall]
    exact h.queue
  · rw [haccepted]
    exact h.grows
  · rw [written_afterCall, haccepted]
    exact h.log

/-- No poll accepts or writes a job, or enqueues a worker. -/
theorem polled_settled : Polled (Settled k w₀) :=
  ⟨fun _ _ hreq h => h.call (accepts_query hreq _),
    fun _ _ hrow h => ⟨hrow.trans h.holds, h.queue, h.grows, h.log⟩,
    fun _ _ h => ⟨h.holds, h.queue, h.grows, h.log⟩⟩

/-- What one command counts for. -/
def dues (k : Worker) (cmd : Command) (forced : Bool) : ℕ :=
  if forced = false ∧ cmd.waiter = k then 1 else 0

theorem written_stored (w : World) (cmd : Command) (forced : Bool) (jobid : Option String)
    (state : String) :
    (w.stored cmd forced jobid state).written k = w.written k + dues k cmd forced := by
  have hlast : (if ((Event.stored cmd forced jobid).waiter == some k) = true then 1 else 0) =
      dues k cmd forced := by
    cases forced with
    | true => simp [Event.waiter, dues]
    | false => simp [Event.waiter, dues]
  simp only [World.written, World.stored, List.countP_append, List.countP_singleton, hlast]

theorem accepted_stored (w : World) (cmd : Command) (forced : Bool) (jobid : Option String)
    (state : String) : (w.stored cmd forced jobid state).accepted k = w.accepted k := by
  simp [World.accepted, World.stored, Event.accepts]

/-- The worker of the command is enqueued. -/
theorem waiting_later (w : World) (cmd : Command) (forced : Bool) :
    (w.later (if forced then none else some cmd.waiter)).waiting k =
      w.waiting k + dues k cmd forced := by
  cases forced with
  | true => simp [World.later, dues]
  | false =>
    simp only [Bool.false_eq_true, if_false, World.waiting, World.later, List.countP_append,
      List.countP_singleton, beq_iff_eq, dues, true_and]

/-- The request carries the command, and the worker of the command waits for it. -/
structure Carries (req : Request) (cmd : Command) (forced : Bool) : Prop where
  command : req.command = some cmd
  waiter : req.waiter = if forced then none else some cmd.waiter

theorem carries_deploy (args : DeployArgs) : Carries (.deployVirtualMachine args) .deploy false :=
  ⟨rfl, rfl⟩

/-- An accepted command counts. -/
theorem accepted_command {w : World} {req : Request} {cmd : Command} {forced : Bool}
    (hreq : Carries req cmd forced) {jobid : Option String} (hanswer : w.answer = .job cmd jobid) :
    (w.afterCall req).accepted k = w.accepted k + dues k cmd forced := by
  rw [accepted_afterCall, hanswer]
  cases forced with
  | true => simp [Event.accepts, dues, hreq.waiter]
  | false => simp [Event.accepts, dues, hreq.command, hreq.waiter]

/-- An accepted command that is not written is lost. -/
theorem Settled.lost {w : World} (h : Settled k w₀ w) {req : Request} {cmd : Command}
    {forced : Bool} (hreq : Carries req cmd forced) (hcmd : cmd ≠ .deploy) {jobid : Option String}
    (hanswer : w.answer = .job cmd jobid) (hholds : w.holds = false) :
    Settled k w₀ (w.afterCall req) := by
  have haccepted := accepted_command (k := k) hreq hanswer
  have hloses : w₀.loses k = false → dues k cmd forced = 0 := by
    intro hno
    have hk : k = .vmDeploy := by
      simpa [World.loses, ← h.holds, hholds] using hno
    subst hk
    cases cmd with
    | deploy => exact absurd rfl hcmd
    | start => simp [dues, Command.waiter]
    | stop => simp [dues, Command.waiter]
    | destroy => simp [dues, Command.waiter]
  refine ⟨h.holds, ?_, ?_, ?_⟩
  · rw [written_afterCall]
    exact h.queue
  · rw [haccepted]
    exact Nat.le_trans h.grows (Nat.le_add_right _ _)
  · have hlog := h.log
    have hgrows := h.grows
    rw [written_afterCall, haccepted]
    cases hlost : w₀.loses k with
    | true =>
      simp only [hlost, if_true] at hlog ⊢
      omega
    | false =>
      simp only [hlost, Bool.false_eq_true, if_false] at hlog ⊢
      rw [hloses hlost]
      exact hlog

/-- An accepted command that is written, with its worker. -/
theorem Settled.stored {w : World} (h : Settled k w₀ w) {req : Request} {cmd : Command}
    {forced : Bool} (hreq : Carries req cmd forced) {jobid : Option String} {state : String}
    (hanswer : w.answer = .job cmd jobid) (hwritten : w.holds = true ∨ cmd = .deploy) :
    Settled k w₀ (((w.afterCall req).stored cmd forced jobid state).later
      (if forced then none else some cmd.waiter)) := by
  have haccepted := accepted_command (k := k) hreq hanswer
  have hlog := written_stored (k := k) (w.afterCall req) cmd forced jobid state
  have hqueue := waiting_later (k := k) ((w.afterCall req).stored cmd forced jobid state) cmd
    forced
  have hcount := accepted_stored (k := k) (w.afterCall req) cmd forced jobid state
  rw [written_afterCall] at hlog
  rw [haccepted] at hcount
  -- nobody but the queue is changed by the worker
  have hsame : ∀ (w' : World) (later : Option Worker), (w'.later later).written k = w'.written k ∧
      (w'.later later).accepted k = w'.accepted k ∧ (w'.later later).holds = w'.holds := by
    intro w' later
    cases later <;> exact ⟨rfl, rfl, rfl⟩
  obtain ⟨hsameLog, hsameCount, hsameHolds⟩ :=
    hsame ((w.afterCall req).stored cmd forced jobid state)
      (if forced then none else some cmd.waiter)
  have hwaiting : ((w.afterCall req).stored cmd forced jobid state).waiting k = w.waiting k := rfl
  refine ⟨hsameHolds.trans h.holds, ?_, ?_, ?_⟩
  · have hold := h.queue
    rw [hqueue, hsameLog, hlog, hwaiting]
    omega
  · rw [hsameCount, hcount]
    exact Nat.le_trans h.grows (Nat.le_add_right _ _)
  · have hold := h.log
    have hgrows := h.grows
    rw [hsameLog, hlog, hsameCount, hcount]
    cases hlost : w₀.loses k with
    | false =>
      simp only [hlost, Bool.false_eq_true, if_false] at hold ⊢
      omega
    | true =>
      have hnone : dues k cmd forced = 0 := by
        obtain ⟨hinvalid, hk⟩ := Bool.and_eq_true_iff.mp hlost
        rcases hwritten with hholds | rfl
        · rw [← h.holds, hholds] at hinvalid
          exact absurd hinvalid Bool.false_ne_true
        · have hne : Worker.vmDeploy ≠ k := Ne.symm (bne_iff_ne.mp hk)
          simp [dues, Command.waiter, hne]
      simp only [hlost, if_true, hnone, Nat.add_zero] at hold ⊢
      exact hold

/-- A command that is answered with something else. -/
theorem Settled.refused {w : World} (h : Settled k w₀ w) {req : Request} {cmd : Command}
    {forced : Bool} (hreq : Carries req cmd forced)
    (hanswer : ∀ jobid, w.answer ≠ .job cmd jobid) : Settled k w₀ (w.afterCall req) := by
  refine h.call ?_
  cases hjob : w.answer with
  | job cmd' jobid =>
    have hne : cmd ≠ cmd' := by
      rintro rfl
      exact hanswer jobid hjob
    simp [Event.accepts, hreq.command, hne]
  | _ => rfl

/-- What follows an allowed guard. -/
theorem settled_sendCommand {req : Instance → Request} {cmd : Command} {forced : Bool}
    {state : String} (hreq : ∀ r, Carries (req r) cmd forced) (hcmd : cmd ≠ .deploy) :
    Keeps (Settled k w₀)
      (sendCommand req cmd forced state (if forced then none else some cmd.waiter)) := by
  refine Keeps.of_state fun w hw => ?_
  have hrefused := fun hanswer => hw.refused (hreq w.row) hanswer
  rw [run_sendCommand]
  cases hanswer : w.answer with
  | nil => exact hrefused (by simp [hanswer])
  | listVirtualMachines vms => exact hrefused (by simp [hanswer])
  | queryAsyncJobResult jobstatus vm => exact hrefused (by simp [hanswer])
  | malformed => exact hrefused (by simp [hanswer])
  | job cmd' jobid =>
    by_cases hsame : cmd' = cmd
    · subst hsame
      by_cases hholds : w.holds = true
      · simp only [hholds, if_true]
        exact hw.stored (hreq w.row) hanswer (Or.inl hholds)
      · simp only [hholds, if_true, Bool.false_eq_true, if_false]
        exact hw.lost (hreq w.row) hcmd hanswer (by simpa using hholds)
    · simp only [hsame, if_false]
      exact hrefused (by simp [hanswer, hsame])

theorem settled_deploy : Keeps (Settled k w₀) deploy := by
  refine Keeps.of_state fun w hw => ?_
  have hcases := deploys_deploy w
  generalize run deploy w = outcome at hcases
  cases hcases with
  | idle => exact hw
  | refused hanswer => exact hw.refused (carries_deploy _) hanswer
  | @accepted args jobid hanswer =>
    have hstored : Settled k w₀ (((w.afterCall (.deployVirtualMachine args)).stored .deploy false
        jobid "approving").later (some .vmDeploy)) :=
      hw.stored (carries_deploy args) hanswer (Or.inr rfl)
    -- the counts do not see which columns are written
    have hsame : (w.deployed args jobid).waiting k =
        (((w.afterCall (.deployVirtualMachine args)).stored .deploy false jobid
          "approving").later (some .vmDeploy)).waiting k := by
      simp [World.waiting, World.deployed, World.later, World.stored, World.afterCall]
    refine ⟨hstored.holds, ?_, hstored.grows, hstored.log⟩
    rw [hsame]
    exact hstored.queue

/-- A guard that asks for one state of a created instance is a poll. -/
theorem settled_guard {state : String} :
    Keeps (Settled k w₀) (do
      let created ← isCreated
      let row ← self
      pure (created && row.is state)) :=
  Keeps.bind polled_settled.isCreated fun _ => Triple.bind read_self fun _ => Keeps.pure

theorem settled_start : Keeps (Settled k w₀) start := by
  unfold start canStart
  apply Keeps.bind polled_settled.updateState
  intro _
  apply Keeps.bind settled_guard
  intro can
  refine Keeps.ite (fun _ => ?_) fun _ => Keeps.pure
  exact settled_sendCommand (fun _ => ⟨rfl, rfl⟩) (by decide)

theorem settled_stop (forced : Bool) : Keeps (Settled k w₀) (stop forced) := by
  unfold stop canStop
  apply Keeps.bind polled_settled.updateState
  intro state
  apply Keeps.ite (fun _ => Keeps.pure)
  intro _
  refine Keeps.ite (fun _ => ?_) fun _ => ?_
  · exact settled_sendCommand (fun _ => ⟨rfl, rfl⟩) (by decide)
  apply Keeps.bind settled_guard
  intro can
  refine Keeps.ite (fun _ => ?_) fun _ => Keeps.pure
  exact settled_sendCommand (fun _ => ⟨rfl, rfl⟩) (by decide)

theorem settled_destroyVm : Keeps (Settled k w₀) destroyVm := by
  unfold destroyVm canDestroy
  apply Keeps.bind polled_settled.updateState
  intro state
  apply Keeps.ite (fun _ => Keeps.pure)
  intro _
  apply Keeps.bind
  · apply Triple.bind read_self
    intro row
    exact Keeps.ite (fun _ => Keeps.pure) fun _ => polled_settled.isCreated
  intro can
  refine Keeps.ite (fun _ => ?_) fun _ => Keeps.pure
  exact settled_sendCommand (fun _ => ⟨rfl, rfl⟩) (by decide)

/-- **A method that is called from outside settles.** -/
theorem settled_run {op : Op} (hop : ∀ job, op ≠ .perform job) : Keeps (Settled k w₀) op.run := by
  have hpolls : Polled (Settled k w₀) := polled_settled
  cases op with
  | deploy => exact Keeps.bind settled_deploy fun _ => Keeps.pure
  | updateState => exact Keeps.bind hpolls.updateState fun _ => Keeps.pure
  | isCreated => exact Keeps.bind hpolls.isCreated fun _ => Keeps.pure
  | start => exact Keeps.bind settled_start fun _ => Keeps.pure
  | stop forced => exact Keeps.bind (settled_stop forced) fun _ => Keeps.pure
  | destroyVm => exact Keeps.bind settled_destroyVm fun _ => Keeps.pure
  | vncToSpiceProtocol => exact Keeps.bind hpolls.vncToSpiceProtocol fun _ => Keeps.pure
  | perform job => exact absurd rfl (hop job)

end Commands

/-! ### Turns and runs -/

/-- A call from outside is no run of a worker. -/
theorem queueTurn_call (w : World) (c : Call) :
    queueTurn w (.call c) = w ∨
      (∀ job, c.op ≠ .perform job) ∧ queueTurn w (.call c) = operate w c := by
  cases hop : c.op with
  | perform job => exact Or.inl (by simp [queueTurn, hop])
  | _ => exact Or.inr ⟨by simp, by simp [queueTurn, hop]⟩

/-- The job is off the queue while its worker runs. -/
theorem waiting_taken (k : Worker) {w : World} {place : ℕ} {job : Job}
    (hplace : w.queue[place]? = some job) (replies : List Reply) (ssh : List SshReply) :
    w.waiting k = (w.taken place replies ssh).waiting k + if job.worker = k then 1 else 0 := by
  obtain ⟨hlt, hjob⟩ := List.getElem?_eq_some_iff.mp hplace
  have hperm := (List.getElem_cons_eraseIdx_perm hlt).countP_eq fun job => job.worker == k
  rw [hjob, List.countP_cons] at hperm
  simpa [World.waiting, World.taken] using hperm.symm

/-- The queue after the turn of a worker: the job is there again, or it has ended. -/
theorem queue_work {w : World} {place : ℕ} {job : Job} (hplace : w.queue[place]? = some job)
    (replies : List Reply) (ssh : List SshReply) (retried : Bool) :
    (queueTurn w (.work place replies ssh retried)).queue =
      if Ends job.worker w (.work place replies ssh retried) then
        (w.taken place replies ssh).queue
      else (w.taken place replies ssh).queue ++ [job] := by
  have hqueue := queue_perform job (w.taken place replies ssh)
  have hquiet := @not_again_of_raises job (w.taken place replies ssh)
  simp only [Ends, hplace, queueTurn, Option.any_some, beq_self_eq_true, Bool.true_and]
  rcases hout : run (perform job) (w.taken place replies ssh) with ⟨e | u, w'⟩
  · have hraises : raises job (w.taken place replies ssh) = true := by simp [raises, hout]
    have hnot := hquiet hraises
    rw [hnot, hout, if_neg Bool.false_ne_true] at hqueue
    cases retried with
    | true => simpa [hnot, hraises] using hqueue
    | false => simpa [hnot] using hqueue
  · have hreturns : raises job (w.taken place replies ssh) = false := by simp [raises, hout]
    rw [hout] at hqueue
    cases hagain : again job (w.taken place replies ssh) with
    | true => simpa [hagain] using hqueue
    | false => simpa [hagain, hreturns] using hqueue

/-- No turn of a worker sends a command. -/
theorem counts_work (k : Worker) (w : World) (place : ℕ) (replies : List Reply)
    (ssh : List SshReply) (retried : Bool) :
    (queueTurn w (.work place replies ssh retried)).written k = w.written k ∧
      (queueTurn w (.work place replies ssh retried)).accepted k = w.accepted k := by
  cases hplace : w.queue[place]? with
  | none => simp [queueTurn, hplace]
  | some job =>
    have hpolls := polled_counts k (w.written k) (w.accepted k)
    have hstart : (w.taken place replies ssh).written k = w.written k ∧
        (w.taken place replies ssh).accepted k = w.accepted k := ⟨rfl, rfl⟩
    have hrun := (hpolls.perform (fun _ _ h => h) job).state hstart
    simp only [queueTurn, hplace]
    rcases hout : run (perform job) (w.taken place replies ssh) with ⟨e | u, w'⟩
    · rw [hout] at hrun
      cases retried with
      | true => exact hrun
      | false => exact hrun
    · rw [hout] at hrun
      exact hrun

/-- A turn of a call settles. -/
theorem settled_call (k : Worker) (w : World) (c : Call) : Settled k w (queueTurn w (.call c)) := by
  rcases queueTurn_call w c with hsame | ⟨hop, hrun⟩
  · rw [hsame]
    exact settled_refl k w
  · rw [hrun]
    have hkeeps : Keeps (Settled k w) c.op.run := settled_run hop
    have hself := settled_refl k w
    have hstart : Settled k w { w with replies := c.replies, ssh := c.ssh } :=
      ⟨hself.holds, hself.queue, hself.grows, hself.log⟩
    exact hkeeps.state hstart

/-- **One turn settles the account of every worker** with the jobs that are written. -/
theorem settles_queueTurn (k : Worker) :
    Settles queueTurn (World.waiting k) (World.written k)
      (fun w a => if Ends k w a then 1 else 0) := by
  intro w a
  cases a with
  | call c => exact (settled_call k w c).queue
  | work place replies ssh retried =>
    rw [(counts_work k w place replies ssh retried).1]
    cases hplace : w.queue[place]? with
    | none =>
      have hsame : queueTurn w (.work place replies ssh retried) = w := by
        simp [queueTurn, hplace]
      simp [hsame, Ends, hplace]
    | some job =>
      have htaken := waiting_taken k hplace replies ssh
      have hqueue := queue_work hplace replies ssh retried
      have hends : Ends k w (.work place replies ssh retried) =
          (job.worker == k && Ends job.worker w (.work place replies ssh retried)) := by
        simp [Ends, hplace, Bool.and_assoc]
      show World.waiting k _ + (if Ends k w _ then 1 else 0) + _ = _
      rw [hends, htaken]
      cases hover : Ends job.worker w (.work place replies ssh retried) with
      | true =>
        rw [hover, if_pos rfl] at hqueue
        simp [World.waiting, hqueue]
      | false =>
        rw [hover, if_neg Bool.false_ne_true] at hqueue
        simp [World.waiting, hqueue, List.countP_singleton]

/-- What can happen to a row: a turn, or a change of the tables its validations look into. -/
inductive Happening
  | turn (a : QueueTurn)
  | tables (catalogue : Catalogue) (otherNames : List String)

def happen (w : World) : Happening → World
  | .turn a => queueTurn w a
  | .tables catalogue otherNames => { w with catalogue := catalogue, otherNames := otherNames }

/-- The jobs of the worker that end in it. -/
def endedIn (k : Worker) (w : World) : Happening → ℕ
  | .turn a => if Ends k w a then 1 else 0
  | .tables _ _ => 0

/-- The commands that are accepted in it, and lost. -/
def lostIn (k : Worker) (w : World) (h : Happening) : ℕ :=
  if w.loses k then (happen w h).accepted k - w.accepted k else 0

/-- **So does all that happens**, with the commands that are accepted. -/
theorem settles_happen (k : Worker) :
    Settles happen (World.waiting k) (World.accepted k)
      (fun w h => endedIn k w h + lostIn k w h) := by
  intro w h
  cases h with
  | tables catalogue otherNames =>
    show w.waiting k + (0 + if w.loses k then w.accepted k - w.accepted k else 0) + _ = _
    simp [happen, World.accepted]
  | turn a =>
    have hqueue := settles_queueTurn k w a
    have hlog : (queueTurn w a).written k + lostIn k w (.turn a) + w.accepted k =
        w.written k + (queueTurn w a).accepted k := by
      cases a with
      | call c => exact (settled_call k w c).log
      | work place replies ssh retried =>
        -- a worker sends no command, so that none is lost
        obtain ⟨hwritten, haccepted⟩ := counts_work k w place replies ssh retried
        simp only [lostIn, happen, hwritten, haccepted]
        simp
    show (queueTurn w a).waiting k + ((if Ends k w a then 1 else 0) + lostIn k w (.turn a)) + _ = _
    simp only at hqueue
    have hsame : (happen w (.turn a)).accepted k = (queueTurn w a).accepted k := rfl
    omega

/-- **What waits, what has ended and what was lost make up what was accepted**, in every run
and for every worker: no command has two workers, and none is without its worker but those
accepted while the row did not pass its validations. -/
theorem workers_conserved (k : Worker) (w : World) (hs : List Happening) :
    (hs.foldl happen w).waiting k + spent happen (endedIn k) w hs +
        spent happen (lostIn k) w hs + w.accepted k =
      w.waiting k + (hs.foldl happen w).accepted k := by
  rw [Nat.add_assoc (World.waiting k _), ← spent_add]
  exact balance (settles_happen k) w hs

/-- The offerings are gone, and an accepted start has no worker. -/
def lostStart : List Happening :=
  [.tables ⟨[], [], []⟩ [], .turn (.call ⟨.start, [.nil, .nil, .job .start (some "job-1")], []⟩)]

example : (lostStart.foldl happen stoppedWorld).accepted .vmStart = 1 ∧
    spent happen (lostIn .vmStart) stoppedWorld lostStart = 1 ∧
    (lostStart.foldl happen stoppedWorld).queue = [] := by
  decide

/-! ### One deployment -/

/-- What the cloud answers during a turn. -/
def QueueTurn.replies : QueueTurn → List Reply
  | .call c => c.replies
  | .work _ replies _ _ => replies

section Turns

variable {A : Reply → Prop} {I : World → Prop}

/-- What the statements keep as long as all answers satisfy `A`, one turn keeps. -/
theorem inv_queueTurn (hnil : A .nil)
    (hI : ∀ C w w', Answered A w → Does C w w' → I w → I w')
    (hfree : ∀ w queue replies ssh, I w →
      I { w with queue := queue, replies := replies, ssh := ssh }) {w : World} {a : QueueTurn}
    (hlog : Logged A w) (hw : I w) (ha : ∀ reply ∈ a.replies, A reply) :
    Logged A (queueTurn w a) ∧ I (queueTurn w a) := by
  cases a with
  | call c =>
    rcases queueTurn_call w c with hsame | ⟨-, hrun⟩
    · rw [hsame]
      exact ⟨hlog, hw⟩
    · rw [hrun]
      exact inv_answered hnil hI (fun w replies ssh h => hfree w w.queue replies ssh h) hlog hw ha
  | work place replies ssh retried =>
    cases hplace : w.queue[place]? with
    | none => simpa [queueTurn, hplace] using ⟨hlog, hw⟩
    | some job =>
      have hrun : Answered A (run (perform job) (w.taken place replies ssh)).2 ∧
          I (run (perform job) (w.taken place replies ssh)).2 := by
        have hkeeps : Keeps (fun w => Answered A w ∧ I w) (perform job) := by
          refine Keeps.of_steps (after_run (.perform job)) ?_
          rintro w w' hdoes ⟨hans, hw⟩
          exact ⟨hans.does hnil hdoes, hI _ _ _ hans hdoes hw⟩
        exact hkeeps.state ⟨⟨ha, hlog⟩, hfree w _ replies ssh hw⟩
      simp only [queueTurn, hplace]
      rcases hout : run (perform job) (w.taken place replies ssh) with ⟨e | u, w'⟩
      · rw [hout] at hrun
        cases retried with
        | false => exact ⟨hrun.1.trace, hrun.2⟩
        | true => exact ⟨hrun.1.trace, hfree w' _ w'.replies w'.ssh hrun.2⟩
      · rw [hout] at hrun
        exact ⟨hrun.1.trace, hrun.2⟩

/-- The same for every run. -/
theorem inv_queueTurns (hnil : A .nil)
    (hI : ∀ C w w', Answered A w → Does C w w' → I w → I w')
    (hfree : ∀ w queue replies ssh, I w →
      I { w with queue := queue, replies := replies, ssh := ssh }) {w : World}
    {turns : List QueueTurn} (hlog : Logged A w) (hw : I w)
    (hturns : ∀ a ∈ turns, ∀ reply ∈ a.replies, A reply) : I (turns.foldl queueTurn w) := by
  induction turns generalizing w with
  | nil => exact hw
  | cons a turns ih =>
    obtain ⟨hlog', hw'⟩ := inv_queueTurn hnil hI hfree hlog hw (hturns a List.mem_cons_self)
    exact ih hlog' hw' fun b hb => hturns b (List.mem_cons_of_mem a hb)

end Turns

/-- A row is bound to one machine, and one deployment has been written at most. -/
def OneWritten (w : World) : Prop := Bound w ∧ w.written .vmDeploy ≤ 1

theorem written_deploy_eq_zero {w : World} (hnone : w.trace.any Event.storesDeploy = false) :
    w.written .vmDeploy = 0 := by
  refine List.countP_eq_zero.mpr fun e he hwaits => ?_
  have hno := List.any_eq_false.mp hnone e he
  cases e with
  | call req reply => exact absurd hwaits (by simp [Event.waiter])
  | stored cmd forced jobid =>
    cases cmd with
    | deploy => exact hno rfl
    | start => exact absurd hwaits (by cases forced <;> simp [Event.waiter, Command.waiter])
    | stop => exact absurd hwaits (by cases forced <;> simp [Event.waiter, Command.waiter])
    | destroy => exact absurd hwaits (by cases forced <;> simp [Event.waiter, Command.waiter])

/-- **Every statement keeps it**: a deployment is accepted for a pending row only. -/
theorem OneWritten.does {C : May} {w w' : World} (h : OneWritten w)
    (hw : Answered (fun reply => reply.pending = false) w) (hdoes : Does C w w') :
    OneWritten w' := by
  refine ⟨h.1.does hw hdoes, ?_⟩
  cases hdoes with
  | calls hreq hallowed =>
    rw [written_afterCall]
    exact h.2
  | @stores cmd forced jobid s hcmd hs =>
    have hno : dues .vmDeploy cmd forced = 0 := by
      cases cmd with
      | deploy => exact absurd rfl hcmd
      | start => simp [dues, Command.waiter]
      | stop => simp [dues, Command.waiter]
      | destroy => simp [dues, Command.waiter]
    have hlog := written_stored (k := .vmDeploy) w cmd forced jobid s
    rw [hno] at hlog
    exact Nat.le_trans (Nat.le_of_eq hlog) h.2
  | @approves args jobid hargs hpending hcall =>
    have hnone := written_deploy_eq_zero (h.1.open hpending).2
    have hlog := written_stored (k := .vmDeploy) w .deploy false jobid "approving"
    rw [hnone] at hlog
    exact Nat.le_of_eq hlog
  | scripts ssh => exact h.2
  | enqueues hjob => exact h.2
  | lists hcall hs => exact h.2
  | marks hs => exact h.2
  | addresses hostname port => exact h.2
  | creates hjob hopen hcall hrow => exact h.2

/-- **A row has one `VMDeploy` in its life**, if no machine in a reply reads as pending:
of the jobs queued and those that have ended there is never more than one. -/
theorem one_deployment_worker {w : World} (hnew : w.row.instanceId = none) (hlog : w.trace = [])
    (hqueue : w.queue = []) {turns : List QueueTurn}
    (hreplies : ∀ a ∈ turns, ∀ reply ∈ a.replies, reply.pending = false) :
    (turns.foldl queueTurn w).waiting .vmDeploy + ended .vmDeploy w turns ≤ 1 := by
  have hstart : OneWritten w := by
    refine ⟨⟨fun h => ?_, fun h => ?_, ?_⟩, ?_⟩
    · simp [hnew, hlog] at h
    · simp [hnew] at h
    · rw [hlog]
      exact always_nil
    · simp [World.written, hlog]
  have hend : OneWritten (turns.foldl queueTurn w) := by
    refine inv_queueTurns (A := fun reply => reply.pending = false) (by decide)
      (fun C w w' hans hdoes h => h.does hans hdoes) (fun w queue replies ssh h => ?_)
      (by simp [Logged, hlog]) hstart hreplies
    exact ⟨⟨h.1.closed, h.1.done, h.1.once⟩, h.2⟩
  exact stock_add_spent_le (settles_queueTurn .vmDeploy) (by simp [World.waiting, hqueue]) hend.2

/-- A deployment that is polled, retried after a raise, and fails. -/
theorem one_deployment_worker_failing :
    ([acceptedDeploy, pollDeploy "0", .work 0 [.malformed] [] true, pollDeploy "2"].foldl
        queueTurn pendingWorld).waiting .vmDeploy +
      ended .vmDeploy pendingWorld
        [acceptedDeploy, pollDeploy "0", .work 0 [.malformed] [] true, pollDeploy "2"] ≤ 1 :=
  one_deployment_worker rfl rfl rfl (by decide)

end BkPlatform.Portal
