import BkPlatform.Lib.Run
import BkPlatform.Portal.Binding
import BkPlatform.Portal.Polls
import BkPlatform.Portal.Statements

/-!
# Waiting for a deployment

`VMDeploy` polls until `isCreated` agrees, and is enqueued again as long as it does not,
unless the deployment has failed.  The failure is looked for in the copy of the row the
job was enqueued with, as the state `error`; but that copy is taken right after `deploy`
has written `approving` and is handed on unchanged, and what `isCreated` writes on a
failure is `Error`, into the row.

So no failure ends the polling: the run that stores it enqueues itself again.

## Main definitions

* `QueueTurn`, `queueTurn` — a call, or a worker taking a job from the queue.
* `StoresFailure` — a `VMDeploy` run is told of the failure and `isCreated` stores it.
* `PollingEnds` — no such run, nor any later one, enqueues `VMDeploy` again.

## Main results

* `pollingEnds_iff` — **the polling ends in no run in which a failure is stored.**
* `polls_after_failure` — a deployment that fails.
-/

namespace BkPlatform.Portal

open Eff RubyString

/-! ### Runs with a queue -/

/-- A method called from outside, or a worker taking the job at a place of the queue;
a job that raises is put back or dropped. -/
inductive QueueTurn
  | call (c : Call)
  | work (place : ℕ) (replies : List Reply) (ssh : List SshReply) (retried : Bool)
  deriving DecidableEq, Repr

/-- What a worker runs in: the job is off the queue. -/
def World.taken (w : World) (place : ℕ) (replies : List Reply) (ssh : List SshReply) : World :=
  { w with queue := w.queue.eraseIdx place, replies := replies, ssh := ssh }

/-- One turn.  A worker is run for a queued job only. -/
def queueTurn (w : World) : QueueTurn → World
  | .call c =>
    match c.op with
    | .perform _ => w
    | _ => operate w c
  | .work place replies ssh retried =>
    match w.queue[place]? with
    | none => w
    | some job =>
      match run (perform job) (w.taken place replies ssh) with
      | (.ok _, w') => w'
      | (.error _, w') =>
        if retried then { w' with queue := w'.queue ++ [job] } else w'

/-! ### The property -/

/-- The reply reports that the deployment job has failed. -/
def Reply.failed : Reply → Bool
  | .queryAsyncJobResult (.str s) _ => !toBool s && s != "0"
  | _ => false

/-- The turn is a run of `VMDeploy` that is told of the failure, and `isCreated` stores
the state `Error`. -/
def StoresFailure (w : World) : QueueTurn → Prop
  | .call _ => False
  | .work place replies _ _ =>
    (∃ job ∈ w.queue[place]?, job.worker = .vmDeploy) ∧
      w.row.asksJob = true ∧ (replies.headD .nil).failed = true ∧ w.holds = true

/-- The turn is a run of `VMDeploy` that enqueues `VMDeploy`. -/
def Requeues (w : World) : QueueTurn → Prop
  | .call _ => False
  | .work place replies ssh _ =>
    ∃ job ∈ w.queue[place]?, job.worker = .vmDeploy ∧
      ∃ more, (run (perform job) (w.taken place replies ssh)).2.queue =
          (w.taken place replies ssh).queue ++ more ∧
        ∃ again ∈ more, again.worker = .vmDeploy

/-- Once a failure is stored, neither that run nor a later one enqueues `VMDeploy`. -/
def PollingEnds (w : World) (turns : List QueueTurn) : Prop :=
  ∀ before a after, turns = before ++ a :: after →
    StoresFailure (before.foldl queueTurn w) a →
      ∀ between b rest, a :: after = between ++ b :: rest →
        ¬ Requeues ((before ++ between).foldl queueTurn w) b

/-! ### The copies in the queue -/

/-- The jobs of `VMDeploy` carry a copy that is not in error. -/
def Copies (w : World) : Prop :=
  ∀ job ∈ w.queue, job.worker = .vmDeploy → job.snapshot.state ≠ "error"

/-- A statement enqueues such jobs only, if its limits say so. -/
theorem Copies.does {C : May}
    (hC : ∀ job, C.enqueue job → job.worker = .vmDeploy → job.snapshot.state ≠ "error")
    {w w' : World} (h : Copies w) (hdoes : Does C w w') : Copies w' := by
  cases hdoes with
  | @enqueues job hjob =>
    intro j hj
    rcases List.mem_append.mp hj with hold | hnew
    · exact h j hold
    · obtain rfl := List.mem_singleton.mp hnew
      exact hC j hjob
  | calls hreq hallowed => exact h
  | scripts ssh => exact h
  | lists hcall hs => exact h
  | marks hs => exact h
  | addresses hostname port => exact h
  | creates hjob hopen hcall hrow => exact h
  | stores hcmd hs => exact h
  | approves hargs hpending hcall => exact h

/-- A method that is called from outside enqueues a copy of the row `deploy` has just
written. -/
theorem copies_of_enqueues {op : Op} (hop : ∀ job, op ≠ .perform job) {job : Job}
    (hjob : op.may.enqueue job) (hworker : job.worker = .vmDeploy) :
    job.snapshot.state ≠ "error" := by
  cases op with
  | deploy =>
    obtain ⟨-, hstate⟩ : job.worker = .vmDeploy ∧ job.snapshot.state = "approving" := hjob
    rw [hstate]
    decide
  | start => exact absurd (hworker.symm.trans hjob) (by decide)
  | stop forced => exact absurd (hworker.symm.trans hjob) (by decide)
  | destroyVm => exact absurd (hworker.symm.trans hjob) (by decide)
  | perform job' => exact absurd rfl (hop job')
  | updateState => exact False.elim hjob
  | isCreated => exact False.elim hjob
  | vncToSpiceProtocol => exact False.elim hjob

/-- **Every turn keeps it.** -/
theorem Copies.turn {w : World} (h : Copies w) (a : QueueTurn) : Copies (queueTurn w a) := by
  cases a with
  | call c =>
    by_cases hop : ∃ job, c.op = .perform job
    · obtain ⟨job, hjob⟩ := hop
      simpa [queueTurn, hjob] using h
    · have hother : ∀ job, c.op ≠ .perform job := fun job heq => hop ⟨job, heq⟩
      have hsame : queueTurn w (.call c) = operate w c := by
        cases hc : c.op with
        | perform job => exact absurd hc (hother job)
        | _ => simp [queueTurn, hc]
      rw [hsame]
      have hC : ∀ job, c.op.may.enqueue job → job.worker = .vmDeploy →
          job.snapshot.state ≠ "error" := fun job hjob => copies_of_enqueues hother hjob
      exact inv_operate (fun w w' hdoes hw => hw.does hC hdoes) h
  | work place replies ssh retried =>
    cases hplace : w.queue[place]? with
    | none => simpa [queueTurn, hplace] using h
    | some job =>
      have hmem : job ∈ w.queue := List.mem_of_getElem? hplace
      have hjob : job.worker = .vmDeploy → job.snapshot.state ≠ "error" := h job hmem
      have htaken : Copies (w.taken place replies ssh) :=
        fun j hj => h j (List.mem_of_mem_eraseIdx hj)
      -- the worker enqueues no other job than its own
      have hC : ∀ j, (Op.perform job).may.enqueue j → j.worker = .vmDeploy →
          j.snapshot.state ≠ "error" := by
        intro j hj
        obtain rfl : j = job := hj
        exact hjob
      have hrun : Copies (run (perform job) (w.taken place replies ssh)).2 :=
        (Keeps.of_steps (after_run (.perform job)) fun _ _ hdoes hw => hw.does hC hdoes).state
          htaken
      simp only [queueTurn, hplace]
      rcases hout : run (perform job) (w.taken place replies ssh) with ⟨e | u, w'⟩
      · rw [hout] at hrun
        cases retried with
        | false => exact hrun
        | true =>
          intro j hj
          rcases List.mem_append.mp hj with hold | hnew
          · exact hrun j hold
          · obtain rfl := List.mem_singleton.mp hnew
            exact hjob
      · rw [hout] at hrun
        exact hrun

/-! ### The failing run -/

/-- **A run of `VMDeploy` that is told of the failure** stores it and enqueues itself. -/
theorem run_vmDeploy_failed {w : World} {snapshot : Instance} (hcopy : snapshot.state ≠ "error")
    (hasks : w.row.asksJob = true) (hfailed : w.answer.failed = true) (hholds : w.holds = true) :
    (run (vmDeploy snapshot) w).2.row.state = "Error" ∧
      (run (vmDeploy snapshot) w).2.queue = w.queue ++ [⟨.vmDeploy, snapshot⟩] := by
  obtain ⟨job, hjob, hopen⟩ : ∃ job, w.row.jobCreatedId = some job ∧ toBool job = false := by
    cases hjob : w.row.jobCreatedId with
    | none => simp [Instance.asksJob, hjob] at hasks
    | some job => exact ⟨job, rfl, by simpa [Instance.asksJob, hjob] using hasks⟩
  obtain ⟨s, vm, hanswer, hs, hzero⟩ : ∃ s vm, w.answer = .queryAsyncJobResult (.str s) vm ∧
      toBool s = false ∧ s ≠ "0" := by
    unfold Reply.failed at hfailed
    split at hfailed
    · next s vm hanswer => exact ⟨s, vm, hanswer, by simpa using hfailed⟩
    · exact absurd hfailed (by decide)
  have hcheck : run (checkCreated job) w =
      (.ok false, (w.afterCall (.queryAsyncJobResult (some job))).withState "Error") := by
    rw [run_checkCreated, hanswer]
    simp only [hs, if_true, hzero, if_false, hholds]
  have hcreated : run isCreated w =
      (.ok false, (w.afterCall (.queryAsyncJobResult (some job))).withState "Error") := by
    rw [run_isCreated, hjob]
    simp only [hopen, Bool.false_eq_true, if_false, hcheck]
  unfold vmDeploy
  rw [run_bind_ok hcreated, if_pos (by simp [hcopy])]
  exact ⟨rfl, rfl⟩

/-- So a turn that stores a failure enqueues `VMDeploy`. -/
theorem requeues_of_storesFailure {w : World} (hcopies : Copies w) {a : QueueTurn}
    (ha : StoresFailure w a) : Requeues w a := by
  cases a with
  | call c => exact False.elim ha
  | work place replies ssh retried =>
    obtain ⟨⟨job, hplace, hworker⟩, hasks, hfailed, hholds⟩ := ha
    have hcopy : job.snapshot.state ≠ "error" :=
      hcopies job (List.mem_of_getElem? hplace) hworker
    obtain ⟨worker, snapshot⟩ := job
    obtain rfl : worker = .vmDeploy := hworker
    obtain ⟨-, hqueue⟩ := run_vmDeploy_failed (w := w.taken place replies ssh) hcopy hasks hfailed
      hholds
    exact ⟨_, hplace, rfl, _, hqueue, _, List.mem_singleton_self _, rfl⟩

/-- **The polling ends in no run in which a failure is stored**: it does just where there
is nothing to end. -/
theorem pollingEnds_iff {w : World} (hcopies : Copies w) (turns : List QueueTurn) :
    PollingEnds w turns ↔
      Run.Along (Run.total queueTurn) (fun w a => ¬ StoresFailure w a) w turns := by
  rw [Run.along_total_iff]
  constructor
  · intro hends before a after hturns hfails
    have hreached : Copies (before.foldl queueTurn w) :=
      Run.foldl_inv (fun _ b h => h.turn b) hcopies before
    have hquiet := hends before a after hturns hfails [] a after rfl
    rw [List.append_nil] at hquiet
    exact hquiet (requeues_of_storesFailure hreached hfails)
  · intro hnone before a after hturns hfails
    exact absurd hfails (hnone before a after hturns)

/-- An accepted deployment. -/
def acceptedDeploy : QueueTurn := .call ⟨.deploy, [.job .deploy (some "21")], []⟩

/-- `VMDeploy` with this status of the job. -/
def pollDeploy (jobstatus : String) : QueueTurn :=
  .work 0 [.queryAsyncJobResult (.str jobstatus) none] [] true

theorem copies_pendingWorld : Copies pendingWorld := by simp [Copies, pendingWorld]

/-- **A failed deployment is polled again**: the run that stores the failure enqueues
itself. -/
theorem polls_after_failure : ¬ PollingEnds pendingWorld [acceptedDeploy, pollDeploy "2"] := by
  intro h
  have hcopies : Copies (queueTurn pendingWorld acceptedDeploy) := copies_pendingWorld.turn _
  have hfails : StoresFailure (queueTurn pendingWorld acceptedDeploy) (pollDeploy "2") :=
    ⟨⟨_, rfl, rfl⟩, by decide, by decide, by decide⟩
  exact h [acceptedDeploy] (pollDeploy "2") [] rfl hfails [] _ [] rfl
    (requeues_of_storesFailure hcopies hfails)

/-- As long as the job is pending, nothing has to end. -/
theorem pollingEnds_while_pending :
    PollingEnds pendingWorld [acceptedDeploy, pollDeploy "0", pollDeploy "0"] := by
  refine (pollingEnds_iff copies_pendingWorld _).mpr ?_
  simp only [Run.along_total_cons]
  refine ⟨id, ?_, ?_, trivial⟩
  · exact fun hfails => absurd hfails.2.2.1 (by decide)
  · exact fun hfails => absurd hfails.2.2.1 (by decide)

end BkPlatform.Portal
