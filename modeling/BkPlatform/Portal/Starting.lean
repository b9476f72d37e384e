import BkPlatform.Lib.Run
import BkPlatform.Portal.Pending
import BkPlatform.Portal.Polls
import BkPlatform.Portal.Statements

/-!
# Waiting for a start

An accepted start enqueues `VMStart`, which reads the state of the machine until it is
running and then activates SPICE.  The worker names two states, `starting` and
`running`, and a failed call; on every other answer it ends, whether or not the start is
still pending, and nothing else looks for the machine again.

The workers take their jobs from the queue in any order; a job whose run raises is put
back or dropped, as Sidekiq's retries go.

## Main definitions

* `Watch`, `StartTurn`, `turn` — the row with its queue, and whether a start is awaited.
* `Remembered` — an awaited start has a `VMStart` job in the queue.
* `Attended` — the condition on a single turn.

## Main results

* `remembered_iff` — **a started machine is never forgotten exactly in the runs in which
  every turn meets the condition.**
* `forgotten_on_stale_list` — a list from before the start is enough.
-/

namespace BkPlatform.Portal

open Eff RubyString

/-! ### The system -/

/-- The row with its queue, and whether an accepted start is awaited: neither has
`VNCToSPICEProtocol` been called after a reply of `Running`, nor has a reply reported
its end. -/
structure Watch where
  world : World
  awaited : Bool := false
  deriving DecidableEq, Repr

/-- A call of `start`, or a worker taking the `VMStart` job at a place of the queue, with
what the outside answers: `pending` says whether the cloud is still busy with the start,
and `retried` whether a job that raises is put back. -/
inductive StartTurn
  | start (replies : List Reply) (pending : Bool)
  | work (place : ℕ) (replies : List Reply) (ssh : List SshReply) (pending retried : Bool)
  deriving DecidableEq, Repr

/-- A listed state that reports that the machine is destroyed or that the start has
failed: it is in error, or still stopped although the cloud is done with the start. -/
def reportsEnd (pending : Bool) (state : String) : Bool :=
  state == "destroyed" || state == "error" || (state == "stopped" && !pending)

/-- The reply to a list reports the end of the start. -/
def Event.reportsEnd (pending : Bool) : Event → Bool
  | .call (.listVirtualMachines _) reply => reply.state.any (Portal.reportsEnd pending)
  | _ => false

/-- A start that the cloud has accepted. -/
def Event.startAccepted : Event → Bool
  | .call (.startVirtualMachine _) (.job .start _) => true
  | _ => false

/-- `VMStart` has read the state `running`, after which it calls `VNCToSPICEProtocol`. -/
def readsRunning (w : World) : Bool :=
  match run updateState w with
  | (.ok (some s), _) => downcase s == "running"
  | _ => false

/-- The world at the beginning of a turn. -/
def Watch.begin (s : Watch) (queue : List Job) (replies : List Reply) (ssh : List SshReply) :
    World :=
  { s.world with replies := replies, ssh := ssh, trace := [], queue := queue }

/-- One turn. -/
def turn (s : Watch) : StartTurn → Watch
  | .start replies pending =>
    let w := (run start (s.begin s.world.queue replies [])).2
    { world := w
      awaited := w.trace.any Event.startAccepted ||
        (s.awaited && !w.trace.any (Event.reportsEnd pending)) }
  | .work place replies ssh pending retried =>
    match s.world.queue[place]? with
    | some ⟨.vmStart, snapshot⟩ =>
      let begin := s.begin (s.world.queue.eraseIdx place) replies ssh
      let awaited (w : World) := s.awaited && !w.trace.any (Event.reportsEnd pending) &&
        !readsRunning begin
      match run (vmStart snapshot) begin with
      | (.ok _, w) => { world := w, awaited := awaited w }
      | (.error _, w) =>
        let queue := if retried then w.queue ++ [⟨.vmStart, snapshot⟩] else w.queue
        { world := { w with queue := queue }, awaited := awaited w }
    | _ => s

/-- There is a `VMStart` job. -/
def hasVmStart (queue : List Job) : Bool := queue.any fun job => job.worker == .vmStart

/-- An awaited start has a `VMStart` job in the queue. -/
def Remembered (s : Watch) : Prop := s.awaited = true → hasVmStart s.world.queue = true

/-! ### The condition -/

/-- The answers with which a start is sent for a row that fails its validations: both
lists fail, so that the first write is the one that follows the accepted start. -/
def Reply.slipsThrough (replies : List Reply) : Bool :=
  replies.headD .nil == .nil && replies.tail.headD .nil == .nil &&
    match replies.tail.tail.headD .nil with
    | .job .start _ => true
    | _ => false

/-- An answer after which `VMStart` is enqueued again or calls `VNCToSPICEProtocol`, or
which reports the end of the start. -/
def Reply.attends (holds pending retried : Bool) : Reply → Bool
  | .nil => true
  | .listVirtualMachines [vm] =>
    match vm.state with
    | some s => reportsEnd pending (downcase s) ||
        if holds then downcase s == "starting" || downcase s == "running" else retried
    | none => retried
  | _ => retried

/-- The turn does not lose an awaited start. -/
def Attended (s : Watch) : StartTurn → Prop
  | .start replies _ =>
    hasVmStart s.world.queue = true ∨ s.world.holds = true ∨
      ¬ (s.world.row.is "stopped" = true ∧ Reply.slipsThrough replies = true)
  | .work place replies _ pending retried =>
    ∀ job, s.world.queue[place]? = some job → job.worker = .vmStart → s.awaited = true →
      hasVmStart (s.world.queue.eraseIdx place) = true ∨ s.world.row.is "destroyed" = true ∨
        (replies.headD .nil).attends s.world.holds pending retried = true

/-! ### A call of start -/

/-- The deployment job of the row reads as done. -/
def Instance.ready (i : Instance) : Prop := ∃ job, i.jobCreatedId = some job ∧ toBool job = true

/-- `isCreated` of such a row only lists it. -/
theorem run_isCreated_ready {w : World} (hready : w.row.ready) :
    run isCreated w = run stillThere w := by
  obtain ⟨job, hjob, htrue⟩ := hready
  rw [run_isCreated, hjob]
  simp only [htrue, if_true]

/-- What the statements of these operations keep: the row stays ready and its validated
columns as they are, and no job is taken from the queue. -/
structure Waits (w₀ w : World) : Prop where
  ready : w.row.ready
  holds : w.holds = w₀.holds
  queue : hasVmStart w₀.queue = true → hasVmStart w.queue = true

theorem Waits.does {C : May} (hC : ∀ args, ¬ C.send (.deployVirtualMachine args))
    {w₀ w w' : World} (h : Waits w₀ w) (hdoes : Does C w w') : Waits w₀ w' := by
  obtain ⟨hready, hholds, hqueue⟩ := h
  cases hdoes with
  | @enqueues job hjob =>
    refine ⟨hready, hholds, fun h₀ => ?_⟩
    have hold : hasVmStart w.queue = true := hqueue h₀
    simp only [hasVmStart, List.any_append, Bool.or_eq_true]
    exact Or.inl hold
  | approves hargs hpending hcall => exact absurd hargs (hC _)
  | creates hjob hopen hcall hrow =>
    -- the job reads as done
    obtain ⟨job, hdone, htrue⟩ := hready
    obtain rfl := Option.some.inj (hjob.symm.trans hdone)
    rw [hopen] at htrue
    exact absurd htrue (by decide)
  | calls hreq hallowed => exact ⟨hready, hholds, hqueue⟩
  | scripts ssh => exact ⟨hready, hholds, hqueue⟩
  | lists hcall hs => exact ⟨hready, hholds, hqueue⟩
  | marks hs => exact ⟨hready, hholds, hqueue⟩
  | addresses hostname port => exact ⟨hready, hholds, hqueue⟩
  | stores hcmd hs => exact ⟨hready, hholds, hqueue⟩

/-- An operation that deploys nothing. -/
theorem Waits.run (op : Op) (hop : op ≠ .deploy) {w : World} (hready : w.row.ready) :
    Waits w (run op.run w).2 := by
  have hmay : ∀ args, ¬ op.may.send (.deployVirtualMachine args) := by
    intro args
    cases op with
    | deploy => exact absurd rfl hop
    | _ => exact id
  have hkeeps : Keeps (Waits w) op.run :=
    Keeps.of_steps (after_run op) fun _ _ hdoes h => h.does hmay hdoes
  exact hkeeps.state ⟨hready, rfl, id⟩

theorem Waits.start {w : World} (hready : w.row.ready) : Waits w (Eff.run Portal.start w).2 := by
  have hrun : Waits w (Eff.run (do let _ ← Portal.start) w).2 := Waits.run .start (by decide) hready
  rwa [state_run_discard] at hrun

/-- No start has been accepted yet, in a row that passes its validations. -/
def Unsent (w : World) : Prop := w.trace.any Event.startAccepted = false ∧ w.holds = true

/-- An accepted start has its `VMStart` job. -/
def Enqueued (w : World) : Prop :=
  w.trace.any Event.startAccepted = true → hasVmStart w.queue = true

theorem Unsent.does {w w' : World} (h : Unsent w) (hdoes : Does .nothing w w') :
    Unsent w' := by
  obtain ⟨htrace, hholds⟩ := h
  refine ⟨?_, hdoes.valid.trans hholds⟩
  cases hdoes with
  | @calls req hreq hallowed =>
    have hnot : Event.startAccepted (.call req (w.replies.headD .nil)) = false := by
      cases req <;> first | rfl | simp [Request.command, May.nothing] at hreq
    simpa [World.afterCall, htrace] using hnot
  | stores hcmd hs => simp [htrace, Event.startAccepted]
  | approves hargs hpending hcall => exact hargs.elim
  | creates hjob hopen hcall hrow => exact htrace
  | enqueues hjob => exact htrace
  | scripts ssh => exact htrace
  | lists hcall hs => exact htrace
  | marks hs => exact htrace
  | addresses hostname port => exact htrace

/-- The polls before the command accept no start. -/
theorem unsent_updateState : Keeps Unsent updateState := by
  exact Keeps.of_steps (fun w₀ => after_poll) fun _ _ hdoes h => h.does hdoes

theorem unsent_canStart : Keeps Unsent canStart := by
  refine Keeps.of_steps (fun w₀ => ?_) fun _ _ hdoes h => h.does hdoes
  exact after_guard.post fun _ w hw => hw.1

theorem Unsent.enqueued {w : World} (h : Unsent w) : Enqueued w := by
  intro haccepted
  rw [h.1] at haccepted
  exact absurd haccepted (by decide)

/-- Storing the job id does not fail for a row that passes its validations. -/
theorem triple_storeJob {cmd : Command} {forced : Bool} {jobid : Option String} {state : String} :
    Triple (fun w => w.holds = true) (storeJob cmd forced jobid state) (fun _ _ => True)
      (fun _ => False) := by
  unfold storeJob
  refine Triple.bind (M := fun _ _ => True) (fun w hholds => ?_) fun _ => Triple.modify
    fun _ _ => trivial
  rw [@run_updateAttributes _ w { w.row with jobId := jobid, state := state } rfl rfl,
    if_pos hholds]
  trivial

/-- The command, its job id and the worker. -/
theorem enqueued_sendCommand :
    Triple Unsent (sendCommand (fun r => .startVirtualMachine r.instanceId) .start false "starting"
      (some .vmStart)) (fun _ => Enqueued) Enqueued := by
  unfold sendCommand
  apply Triple.bind read_self
  intro row
  -- the start is accepted where the reply carries its job
  refine Triple.bind (M := fun res w => w.holds = true ∧
    (w.trace.any Event.startAccepted = true → ∃ jobid, res = .job .start jobid))
    (triple_postRequest ?_) fun res => ?_
  · rintro w ⟨htrace, hholds⟩
    refine ⟨hholds, fun haccepted => ?_⟩
    have hlast : Event.startAccepted (.call (.startVirtualMachine row.instanceId)
        (w.replies.headD .nil)) = true := by
      simpa [World.afterCall, htrace] using haccepted
    unfold Event.startAccepted at hlast
    split at hlast
    · next jobid heq => exact ⟨jobid, (Event.call.inj heq).2⟩
    · exact absurd hlast (by decide)
  have hother : ∀ w, (w.holds = true ∧
      (w.trace.any Event.startAccepted = true → ∃ jobid, res = .job .start jobid)) →
      (∀ jobid, res ≠ .job .start jobid) → Enqueued w := by
    rintro w ⟨-, hres⟩ hne haccepted
    obtain ⟨jobid, heq⟩ := hres haccepted
    exact absurd heq (hne jobid)
  refine Triple.ite (fun hnil => Triple.pure fun w hw => hother w hw (by simp [hnil])) ?_
  intro _
  refine Triple.bind (M := fun _ w => w.holds = true) ?_ fun jobid => ?_
  · unfold jobidOf
    split
    · next cmd jobid =>
      refine Triple.ite (fun _ => Triple.pure fun w hw => hw.1) fun hcmd => Triple.raise ?_
      exact fun w hw => hother w hw (by simp [hcmd])
    · next hne => exact Triple.raise fun w hw => hother w hw fun jobid => hne .start jobid
  refine Triple.bind (triple_storeJob.weaken (fun w hw => hw) (fun _ _ hw => hw)
    fun w hw => hw.elim) fun _ => ?_
  apply Triple.bind read_self
  intro row'
  refine Triple.bind (M := fun _ => Enqueued) (Triple.modify ?_) fun _ => Keeps.pure
  intro w _ _
  simp [hasVmStart]

/-- **A start that is accepted for a row that passes its validations has its worker.** -/
theorem enqueued_start : Triple Unsent start (fun _ => Enqueued) Enqueued := by
  have hbad : ∀ w, Unsent w → Enqueued w := fun w hw => hw.enqueued
  unfold start
  apply Triple.bind (unsent_updateState.weaken (fun w hw => hw) (fun _ _ hw => hw) hbad)
  intro _
  apply Triple.bind (unsent_canStart.weaken (fun w hw => hw) (fun _ _ hw => hw) hbad)
  intro can
  exact Triple.ite (fun _ => enqueued_sendCommand) fun _ => Triple.pure hbad

/-- `updateState` of a row that fails its validations returns for a destroyed row and
after a failed call only, and writes nothing. -/
theorem updateState_invalid {w : World} (hinvalid : w.holds = false) :
    (w.row.is "destroyed" = true ∧ run updateState w = (.ok none, w)) ∨
    (w.row.is "destroyed" = false ∧ w.answer = .nil ∧
      run updateState w = (.ok none, w.afterCall (.listVirtualMachines w.row.instanceId))) ∨
    (w.answer ≠ .nil ∧ ∃ e,
      run updateState w = (.error e, w.afterCall (.listVirtualMachines w.row.instanceId))) := by
  have hcases := refreshes_updateState w
  rcases hrun : run updateState w with ⟨out, w₁⟩
  rw [hrun] at hcases
  cases hcases with
  | gone hgone => exact Or.inl ⟨hgone, rfl⟩
  | unanswered hlive hanswer => exact Or.inr (Or.inl ⟨hlive, hanswer, rfl⟩)
  | listed hlive hanswer hs hholds =>
    rw [hinvalid] at hholds
    exact absurd hholds (by decide)
  | @raises e hlive hanswer hrefused => exact Or.inr (Or.inr ⟨hanswer, e, rfl⟩)

/-- A start sent for a row that fails its validations leaves nothing but its log entry. -/
theorem sendCommand_invalid {w : World} (hinvalid : w.holds = false) :
    (run (sendCommand (fun r => .startVirtualMachine r.instanceId) .start false "starting"
      (some .vmStart)) w).2 = w.afterCall (.startVirtualMachine w.row.instanceId) := by
  let w₁ := w.afterCall (.startVirtualMachine w.row.instanceId)
  have hsend : Triple (fun v => v = w) (sendCommand (fun r => .startVirtualMachine r.instanceId)
      .start false "starting" (some .vmStart)) (fun _ v => v = w₁) (fun v => v = w₁) := by
    unfold sendCommand storeJob
    apply Triple.bind triple_self
    intro row
    refine Triple.bind (M := fun _ v => v = w₁) (triple_postRequest ?_) fun res => ?_
    · rintro v ⟨rfl, rfl⟩
      rfl
    refine Triple.ite (fun _ => Keeps.pure) ?_
    intro _
    apply Triple.bind keeps_jobidOf
    intro jobid
    -- the write is refused
    refine Triple.bind (M := fun _ _ => False) (Triple.bind (M := fun _ _ => False) ?_ ?_) ?_
    · rintro v rfl
      rw [@run_updateAttributes _ w₁ { w₁.row with jobId := jobid, state := "starting" } rfl rfl,
        if_neg (by simpa [w₁] using hinvalid)]
    · exact fun _ _ h => h.elim
    · exact fun _ _ h => h.elim
  exact hsend.state rfl

/-- A stopped row is not on its way out. -/
theorem going_of_stopped {r : Instance} (hstopped : r.is "stopped" = true) : r.going = false := by
  have hstate : downcase r.state = downcase "stopped" := Instance.is_iff.mp hstopped
  have hne : (downcase "stopped" == downcase "destroying") = false ∧
      (downcase "stopped" == downcase "destroyed") = false := by decide
  simp [Instance.going, Instance.is, hstate, hne]

/-- `canStart?` of a row that fails its validations. -/
theorem canStart_invalid {w : World} (hready : w.row.ready) (hinvalid : w.holds = false) :
    (w.row.going = true ∧ run canStart w = (.ok false, w)) ∨
    (w.row.going = false ∧ w.answer = .nil ∧ run canStart w =
      (.ok (w.row.is "stopped"), w.afterCall (.listVirtualMachines w.row.instanceId))) ∨
    (w.answer ≠ .nil ∧ ∃ e,
      run canStart w = (.error e, w.afterCall (.listVirtualMachines w.row.instanceId))) := by
  unfold canStart
  rw [run_bind, run_isCreated_ready hready, run_stillThere]
  cases hgoing : w.row.going with
  | true => exact Or.inl ⟨rfl, rfl⟩
  | false =>
    right
    rcases updateState_invalid hinvalid with ⟨hgone, -⟩ | ⟨-, hnil, hrun⟩ | ⟨hanswer, e, hrun⟩
    · rw [Instance.going, hgone, Bool.or_true] at hgoing
      exact absurd hgoing (by decide)
    · left
      refine ⟨rfl, hnil, ?_⟩
      simp [hrun, hgoing, run_bind, self]
    · right
      exact ⟨hanswer, e, by simp [hrun]⟩

theorem startAccepted_call (id : Option String) (reply : Reply) :
    Event.startAccepted (.call (.startVirtualMachine id) reply) =
      match reply with
      | .job .start _ => true
      | _ => false := by
  cases reply with
  | job cmd jobid => cases cmd <;> rfl
  | nil => rfl
  | listVirtualMachines vms => rfl
  | queryAsyncJobResult jobstatus vm => rfl
  | malformed => rfl

/-- **A start of a row that fails its validations** is accepted with just the answers
that slip through, and then has no worker. -/
theorem start_invalid {w : World} (hready : w.row.ready) (hinvalid : w.holds = false)
    (htrace : w.trace = []) :
    (run start w).2.trace.any Event.startAccepted =
        (w.row.is "stopped" && Reply.slipsThrough w.replies) ∧
      (run start w).2.queue = w.queue := by
  have hlist : ∀ reply,
      Event.startAccepted (.call (.listVirtualMachines w.row.instanceId) reply) = false :=
    fun _ => rfl
  unfold start
  rw [run_bind]
  rcases updateState_invalid hinvalid with ⟨hgone, hrun⟩ | ⟨-, hnil, hrun⟩ | ⟨hanswer, e, hrun⟩
  · -- a destroyed row is not stopped
    have hgoing : w.row.going = true := by rw [Instance.going, hgone, Bool.or_true]
    have hstopped : w.row.is "stopped" = false := by
      by_contra h
      rw [going_of_stopped (by simpa using h)] at hgoing
      exact absurd hgoing (by decide)
    rw [hrun, hstopped]
    rcases canStart_invalid hready hinvalid with ⟨-, hcan⟩ | ⟨hnot, -⟩ | ⟨-, e, hcan⟩
    · simp [run_bind, hcan, htrace]
    · rw [hnot] at hgoing
      exact absurd hgoing (by decide)
    · simp only [run_bind, hcan]
      simp [htrace, hlist]
  · rw [hrun]
    have hnil₁ : w.replies.headD .nil = .nil := hnil
    rcases canStart_invalid (w := w.afterCall (.listVirtualMachines w.row.instanceId)) hready
      hinvalid with ⟨hgoing, hcan⟩ | ⟨-, hanswer, hcan⟩ | ⟨hanswer, e, hcan⟩
    · -- the guard ends at the row
      have hstopped : w.row.is "stopped" = false := by
        by_contra h
        rw [World.row_afterCall, going_of_stopped (by simpa using h)] at hgoing
        exact absurd hgoing (by decide)
      simp only [run_bind, hcan]
      simp [htrace, hlist, hstopped]
    · have hnil₂ : w.replies.tail.headD .nil = .nil := hanswer
      rw [World.row_afterCall] at hcan
      simp only [run_bind, hcan]
      cases hstopped : w.row.is "stopped" with
      | false => simp [htrace, hlist]
      | true =>
        -- the start is sent; what its answer is decides
        have hinvalid₂ : ((w.afterCall (.listVirtualMachines w.row.instanceId)).afterCall
            (.listVirtualMachines w.row.instanceId)).holds = false := hinvalid
        rw [if_pos rfl, sendCommand_invalid hinvalid₂]
        refine ⟨?_, rfl⟩
        rw [Reply.slipsThrough, hnil₁, hnil₂]
        simp only [World.trace_afterCall, htrace, List.nil_append, List.any_append, List.any_cons,
          List.any_nil, hlist, Bool.or_false, Bool.false_or, beq_self_eq_true, Bool.true_and]
        exact congrArg (true && ·) (startAccepted_call _ _)
    · have hsecond : (w.replies.tail.headD .nil == .nil) = false := beq_false_of_ne hanswer
      have hslip : Reply.slipsThrough w.replies = false := by
        rw [Reply.slipsThrough, hsecond, Bool.and_false, Bool.false_and]
      simp only [run_bind, hcan]
      simp [htrace, hlist, hslip]
  · have hfirst : (w.replies.headD .nil == .nil) = false := beq_false_of_ne hanswer
    have hslip : Reply.slipsThrough w.replies = false := by
      rw [Reply.slipsThrough, hfirst, Bool.false_and, Bool.false_and]
    rw [hrun]
    simp [htrace, hlist, hslip]

/-! ### One turn -/

/-- **A call of `start` keeps an awaited start remembered exactly if it does not slip
through.** -/
theorem remembered_start {s : Watch} (hready : s.world.row.ready) (hs : Remembered s)
    (replies : List Reply) (pending : Bool) :
    Remembered (turn s (.start replies pending)) ↔ Attended s (.start replies pending) := by
  let w₀ := s.begin s.world.queue replies []
  have hwaits : Waits w₀ (run start w₀).2 := Waits.start hready
  cases hqueue : hasVmStart s.world.queue with
  | true => exact iff_of_true (fun _ => hwaits.queue hqueue) (Or.inl hqueue)
  | false =>
    have hidle : s.awaited = false := by
      by_contra h
      rw [hs (by simpa using h)] at hqueue
      exact absurd hqueue (by decide)
    cases hholds : s.world.holds with
    | true =>
      refine iff_of_true (fun haccepted => ?_) (Or.inr (Or.inl hholds))
      have henqueued : Enqueued (run start w₀).2 := enqueued_start.state ⟨rfl, hholds⟩
      refine henqueued ?_
      simpa [turn, hidle] using haccepted
    | false =>
      -- the row fails its validations: it is all in the answers
      obtain ⟨haccepted, hsame⟩ := start_invalid (w := w₀) hready hholds rfl
      have hleft : Remembered (turn s (.start replies pending)) ↔
          (run start w₀).2.trace.any Event.startAccepted = false := by
        have hnone : hasVmStart (run start w₀).2.queue = false := by
          rw [hsame]
          exact hqueue
        show ((_ || (s.awaited && _)) = true → hasVmStart (run start w₀).2.queue = true) ↔ _
        rw [hidle, hnone, Bool.false_and, Bool.or_false, Bool.eq_false_iff]
        exact ⟨fun h ht => absurd (h ht) (by decide), fun h ht => absurd ht h⟩
      rw [hleft, haccepted]
      show _ ↔ (hasVmStart s.world.queue = true ∨ s.world.holds = true ∨ ¬ _)
      rw [hqueue, hholds]
      simp [w₀, Watch.begin]

/-- `VMStart` from its poll on. -/
theorem run_vmStart (snapshot : Instance) (w : World) :
    run (vmStart snapshot) w =
      match run updateState w with
      | (.error e, w₁) => (.error e, w₁)
      | (.ok none, w₁) => run (performLater .vmStart snapshot) w₁
      | (.ok (some s), w₁) =>
        if downcase s = "starting" then run (performLater .vmStart snapshot) w₁
        else if downcase s = "running" then run (do let _ ← vncToSpiceProtocol) w₁
        else (.ok (), w₁) := by
  unfold vmStart
  rw [run_bind]
  rcases run updateState w with ⟨e | _ | s, w₁⟩
  · rfl
  · rfl
  · by_cases hstarting : downcase s = "starting"
    · simp [hstarting]
    · by_cases hrunning : downcase s = "running"
      · simp [hrunning]
      · simp [hstarting, hrunning]

theorem hasVmStart_snoc (queue : List Job) (snapshot : Instance) :
    hasVmStart (queue ++ [⟨.vmStart, snapshot⟩]) = true := by
  simp [hasVmStart]

/-- What an answer after which `updateState` raises is worth. -/
theorem attends_of_raises {w : World} {pending retried : Bool} (hanswer : w.answer ≠ .nil)
    (hrefused : ∀ vm s, w.answer = .listVirtualMachines [vm] → vm.state = some s →
      w.holds = false) :
    w.answer.attends w.holds pending retried =
      (w.answer.state.any (reportsEnd pending) || retried) := by
  cases hreply : w.answer with
  | nil => exact absurd hreply hanswer
  | job cmd jobid => rfl
  | queryAsyncJobResult jobstatus vm => rfl
  | malformed => rfl
  | listVirtualMachines vms =>
    cases vms with
    | nil => rfl
    | cons vm rest =>
      cases rest with
      | cons vm' rest => rfl
      | nil =>
        cases hs : vm.state with
        | none => simp [Reply.attends, Reply.state, hs]
        | some s =>
          have hinvalid : w.holds = false := hrefused vm s hreply hs
          simp [Reply.attends, Reply.state, hs, hinvalid]

/-- What an answer whose state is written is worth. -/
theorem attends_of_listed {w : World} {pending retried : Bool} {vm : Vm} {st : String}
    (hanswer : w.answer = .listVirtualMachines [vm]) (hst : vm.state = some st)
    (hholds : w.holds = true) :
    w.answer.attends w.holds pending retried = (reportsEnd pending (downcase st) ||
      (downcase st == "starting" || downcase st == "running")) := by
  rw [hanswer, hholds]
  simp [Reply.attends, hst]

/-- The only entry of a fresh log is the list just read. -/
theorem reportsEnd_afterList {w : World} (htrace : w.trace = []) (pending : Bool) :
    (w.afterCall (.listVirtualMachines w.row.instanceId)).trace.any (Event.reportsEnd pending) =
      w.answer.state.any (reportsEnd pending) := by
  rw [World.trace_afterCall, htrace]
  simp [Event.reportsEnd]

/-- **A run of `VMStart` keeps an awaited start remembered exactly if its answer attends
to it**, or another job waits as well. -/
theorem remembered_work {s : Watch} (hs : Remembered s) (place : ℕ) (replies : List Reply)
    (ssh : List SshReply) (pending retried : Bool) :
    Remembered (turn s (.work place replies ssh pending retried)) ↔
      Attended s (.work place replies ssh pending retried) := by
  cases hplace : s.world.queue[place]? with
  | none =>
    -- there is no job at this place
    have hsame : turn s (.work place replies ssh pending retried) = s := by simp [turn, hplace]
    rw [hsame]
    exact iff_of_true hs fun job hjob => by simp [hplace] at hjob
  | some job =>
    obtain ⟨worker, snapshot⟩ := job
    by_cases hworker : worker = .vmStart
    · subst hworker
      let w₀ := s.begin (s.world.queue.eraseIdx place) replies ssh
      have hright : Attended s (.work place replies ssh pending retried) ↔
          (s.awaited = true → hasVmStart w₀.queue = true ∨ w₀.row.is "destroyed" = true ∨
            w₀.answer.attends w₀.holds pending retried = true) := by
        constructor
        · exact fun h hawaited => h _ hplace rfl hawaited
        · intro h job _ _ hawaited
          exact h hawaited
      have hlog := reportsEnd_afterList (w := w₀) rfl pending
      have hcases := refreshes_updateState w₀
      rw [hright]
      simp only [turn, hplace]
      rw [show s.begin (s.world.queue.eraseIdx place) replies ssh = w₀ from rfl, run_vmStart]
      unfold readsRunning
      rcases hrun : run updateState w₀ with ⟨out, w₁⟩
      rw [hrun] at hcases
      cases hcases with
      | gone hgone =>
        exact iff_of_true (fun _ => hasVmStart_snoc _ _) fun _ => Or.inr (Or.inl hgone)
      | unanswered hlive hanswer =>
        refine iff_of_true (fun _ => hasVmStart_snoc _ _) fun _ => Or.inr (Or.inr ?_)
        rw [hanswer]
        rfl
      | @listed vm st hlive hanswer hst hholds =>
        rw [attends_of_listed hanswer hst hholds]
        by_cases hstarting : downcase st = "starting"
        · simp only [hstarting, if_true]
          exact iff_of_true (fun _ => hasVmStart_snoc _ _) fun _ => by simp
        by_cases hrunning : downcase st = "running"
        · -- `VNCToSPICEProtocol` is called, whatever comes of it
          simp only [hrunning]
          refine iff_of_true ?_ fun _ => by simp
          split <;> simp [Remembered]
        · -- the worker ends here, and is right to if the start has ended
          simp only [hstarting, hrunning, if_false]
          change ((s.awaited && !(w₀.afterCall _).trace.any (Event.reportsEnd pending) &&
            !(downcase st == "running")) = true → hasVmStart w₀.queue = true) ↔ _
          have hends : w₀.answer.state.any (reportsEnd pending) =
              reportsEnd pending (downcase st) := by
            simp [hanswer, Reply.state, hst]
          rw [hlog, hends, hlive, beq_false_of_ne hstarting, beq_false_of_ne hrunning]
          cases s.awaited <;> cases reportsEnd pending (downcase st) <;> simp
      | @raises e hlive hanswer hrefused =>
        -- the job is put back or dropped
        rw [attends_of_raises hanswer hrefused, hlive]
        change ((s.awaited && !(w₀.afterCall _).trace.any (Event.reportsEnd pending) &&
          !false) = true → hasVmStart (if retried = true then
            w₀.queue ++ [⟨.vmStart, snapshot⟩] else w₀.queue) = true) ↔ _
        rw [hlog]
        cases retried with
        | true => simp [hasVmStart_snoc]
        | false =>
          cases s.awaited <;> cases w₀.answer.state.any (reportsEnd pending) <;> simp
    · have hsame : turn s (.work place replies ssh pending retried) = s := by
        cases worker with
        | vmStart => exact absurd rfl hworker
        | _ => simp [turn, hplace]
      rw [hsame]
      refine iff_of_true hs fun job hjob hvm => ?_
      rw [hplace] at hjob
      obtain rfl := Option.some.inj hjob
      exact absurd hvm hworker

/-! ### Every run -/

/-- A turn leaves the deployment job done. -/
theorem ready_turn {s : Watch} (hready : s.world.row.ready) (a : StartTurn) :
    (turn s a).world.row.ready := by
  cases a with
  | start replies pending =>
    exact (Waits.start (w := s.begin s.world.queue replies []) hready).ready
  | work place replies ssh pending retried =>
    cases hplace : s.world.queue[place]? with
    | none => simpa [turn, hplace] using hready
    | some job =>
      obtain ⟨worker, snapshot⟩ := job
      cases worker with
      | vmStart =>
        have h := Waits.run (.perform ⟨.vmStart, snapshot⟩) (by simp)
          (w := s.begin (s.world.queue.eraseIdx place) replies ssh) hready
        have hrow := h.ready
        change (run (vmStart snapshot) _).2.row.ready at hrow
        simp only [turn, hplace]
        rcases hrun : run (vmStart snapshot)
          (s.begin (s.world.queue.eraseIdx place) replies ssh) with ⟨e | u, w₁⟩
        · rw [hrun] at hrow
          exact hrow
        · rw [hrun] at hrow
          exact hrow
      | vmDeploy => simpa [turn, hplace] using hready
      | vmStop => simpa [turn, hplace] using hready
      | vmDestroy => simpa [turn, hplace] using hready

/-- At every point of the run an awaited start has its worker. -/
def NeverForgotten (s : Watch) (turns : List StartTurn) : Prop :=
  ∀ before after, turns = before ++ after → Remembered (before.foldl turn s)

/-- **A started machine is never forgotten exactly in the runs in which every turn meets
the condition.** -/
theorem remembered_iff {s : Watch} (hready : s.world.row.ready) (hs : Remembered s)
    (turns : List StartTurn) :
    NeverForgotten s turns ↔ Run.Along (Run.total turn) Attended s turns := by
  have hprefixes : NeverForgotten s turns ↔
      Run.Along (Run.total turn) (fun s a => Remembered (turn s a)) s turns :=
    (Run.along_iff_prefixes hs).symm
  rw [hprefixes]
  apply Run.along_iff (I := fun s => s.world.row.ready ∧ Remembered s) _ _ ⟨hready, hs⟩
  · intro s a _ t hI hkept ht
    obtain rfl : turn s a = t := Option.some.inj ht
    exact ⟨ready_turn hI.1 a, hkept⟩
  · intro s a _ hI
    cases a with
    | start replies pending => exact remembered_start hI.1 hI.2 replies pending
    | work place replies ssh pending retried =>
      exact remembered_work hI.2 place replies ssh pending retried

/-- A start is accepted; the cloud is still busy with it. -/
def acceptedStart : StartTurn :=
  .start [listing "Stopped", listing "Stopped", .job .start (some "41")] true

/-- **A list from before the start ends the wait**: the worker reads `Stopped` while the
start is pending, and is not enqueued again. -/
theorem forgotten_on_stale_list :
    ¬ NeverForgotten ⟨stoppedWorld, false⟩
      [acceptedStart, .work 0 [listing "Stopped"] [] true true] := by
  intro h
  have hend := h [acceptedStart, .work 0 [listing "Stopped"] [] true true] [] rfl
  exact absurd (hend (by decide)) (by decide)

/-- The same start with a list that has caught up: the worker waits while the machine is
starting, and activates SPICE when it runs. -/
theorem remembered_to_running :
    NeverForgotten ⟨stoppedWorld, false⟩
      [acceptedStart, .work 0 [listing "Starting"] [] true true, .work 0 [.nil] [] true true,
        .work 0 [listing "Running", listing "Running", listing "Running"]
          [.ok (some "192.168.50.11") (some "5901")] false true] := by
  refine (remembered_iff ⟨"1", rfl, by decide⟩ (fun h => by simp at h) _).mpr ?_
  simp only [Run.along_total_cons]
  refine ⟨Or.inr (Or.inl (by decide)), ?_, ?_, ?_, trivial⟩
  · exact fun _ _ _ _ => Or.inr (Or.inr (by decide))
  · exact fun _ _ _ _ => Or.inr (Or.inr (by decide))
  · exact fun _ _ _ _ => Or.inr (Or.inr (by decide))

end BkPlatform.Portal
