import BkPlatform.Lib.Log
import BkPlatform.Lib.Run
import BkPlatform.Portal.Statements

/-!
# One row, one machine

`deploy` is guarded by the state column alone, and `isCreated` by `job_created_id`,
which is the id of the deployment job at first and the mark of a finished one later.
The state column is overwritten by everything that polls the cloud; the guard of
`deploy` stays shut as long as no answer puts `pending` back into it.

The answers that reach the column are the listed states and the state of the machine
in a finished deployment job.

## Main definitions

* `Reply.pending` — the reply carries a machine that reads as pending.
* `OneDeployment` — no deployment is sent after a job id has been stored.
* `OneMachine w calls` — the row is bound to one machine for the whole run.

## Main results

* `oneMachine_of_states` — **a row is bound to one machine, if no machine in a reply
  reads as pending.**
* `second_machine` — it is not enough that none is listed as pending.
-/

namespace BkPlatform.Portal

open Eff RubyString Log

/-! ### The property -/

/-- The machines a reply carries: those of a list, and the one a job has made. -/
def Reply.machines : Reply → List Vm
  | .listVirtualMachines vms => vms
  | .queryAsyncJobResult _ vm => vm.toList
  | _ => []

/-- The machine reads as pending to `is_pending?`. -/
def Vm.pending (vm : Vm) : Bool := vm.state.any fun s => downcase s == "pending"

/-- Some machine of the reply reads as pending. -/
def Reply.pending (reply : Reply) : Bool := reply.machines.any Vm.pending

/-- Some machine of a list reads as pending. -/
def Reply.listsPending : Reply → Bool
  | .listVirtualMachines vms => vms.any Vm.pending
  | _ => false

/-- A job id of a deployment. -/
def Event.storesDeploy : Event → Bool
  | .stored cmd _ _ => cmd == .deploy
  | .call _ _ => false

/-- A deployment is not sent after a job id of one has been stored. -/
def OneDeployment (before : List Event) : Event → Prop
  | .call (.deployVirtualMachine _) _ => before.any Event.storesDeploy = false
  | _ => True

instance (before : List Event) (e : Event) : Decidable (OneDeployment before e) := by
  unfold OneDeployment
  split <;> infer_instance

/-- The row is bound to one machine: at most one deployment job, and an id that stays
once it is set. -/
structure OneMachine (w : World) (calls : List Call) : Prop where
  deployment : Always OneDeployment (calls.foldl operate w).trace
  machine : ∀ before after id, calls = before ++ after →
    (before.foldl operate w).row.instanceId = some id →
    (calls.foldl operate w).row.instanceId = some id

/-! ### The invariant -/

/-- What holds between two statements: a row with a machine, or with the job of one, is
not pending, and the job of a row with a machine reads as done. -/
structure Bound (w : World) : Prop where
  closed : w.row.instanceId.isSome = true ∨ w.trace.any Event.storesDeploy = true →
    downcase w.row.state ≠ "pending"
  done : w.row.instanceId.isSome = true → ∃ job, w.row.jobCreatedId = some job ∧ toBool job = true
  once : Always OneDeployment w.trace

/-- A pending row has neither a machine nor the job of one. -/
theorem Bound.open {w : World} (h : Bound w) (hpending : w.row.is "pending" = true) :
    w.row.instanceId = none ∧ w.trace.any Event.storesDeploy = false := by
  have hstate : downcase w.row.state = "pending" := Instance.is_iff.mp hpending
  constructor
  · cases hid : w.row.instanceId with
    | none => rfl
    | some id => exact absurd hstate (h.closed (Or.inl (by rw [hid]; rfl)))
  · cases hjob : w.trace.any Event.storesDeploy with
    | false => rfl
    | true => exact absurd hstate (h.closed (Or.inr hjob))

/-- Writing a state that does not read as pending. -/
theorem Bound.write {w : World} (h : Bound w) {row : Instance}
    (hid : row.instanceId = w.row.instanceId) (hjob : row.jobCreatedId = w.row.jobCreatedId)
    (hstate : downcase row.state ≠ "pending") : Bound { w with row := row } where
  closed := fun _ => hstate
  done := by
    show row.instanceId.isSome = true → ∃ job, row.jobCreatedId = some job ∧ toBool job = true
    rw [hid, hjob]
    exact h.done
  once := h.once

/-- A machine of such a reply does not read as pending. -/
theorem not_pending {reply : Reply} (hreply : reply.pending = false) {vm : Vm} {s : String}
    (hvm : vm ∈ reply.machines) (hs : vm.state = some s) : downcase s ≠ "pending" := by
  have hno : ¬ Vm.pending vm = true := List.any_eq_false.mp hreply vm hvm
  simpa [Vm.pending, hs] using hno

/-- None of the states the methods write themselves reads as pending. -/
theorem literal_not_pending {s : String} (hs : s ∈ ["Error", "Destroyed", "approving"] ∨
    s ∈ ["starting", "stopped", "stopping", "Destroying"]) : downcase s ≠ "pending" := by
  have hall : ∀ s ∈ ["Error", "Destroyed", "approving"] ++
      ["starting", "stopped", "stopping", "Destroying"], downcase s ≠ "pending" := by decide
  exact hall s (List.mem_append.mpr hs)

/-- Nor do the marks. -/
theorem mark_not_pending {s : String} (hs : s = "Error" ∨ s = "Destroyed") :
    downcase s ≠ "pending" := by
  rcases hs with rfl | rfl
  · exact literal_not_pending (Or.inl (by decide))
  · exact literal_not_pending (Or.inl (by decide))

/-- **Every statement keeps the invariant**, whatever it may send. -/
theorem Bound.does {C : May} {w w' : World} (h : Bound w)
    (hw : Answered (fun reply => reply.pending = false) w) (hdoes : Does C w w') : Bound w' := by
  cases hdoes with
  | @calls req hreq hallowed =>
    refine ⟨?_, h.done, always_snoc.mpr ⟨h.once, ?_⟩⟩
    · simpa [World.afterCall, Event.storesDeploy] using h.closed
    · -- a deployment is sent for a pending row only
      cases req with
      | deployVirtualMachine args => exact (h.open hallowed).2
      | listVirtualMachines id => trivial
      | queryAsyncJobResult jobid => trivial
      | startVirtualMachine id => trivial
      | stopVirtualMachine id forced => trivial
      | destroyVirtualMachine id => trivial
  | scripts ssh => exact ⟨h.closed, h.done, h.once⟩
  | enqueues hjob => exact ⟨h.closed, h.done, h.once⟩
  | lists hcall hs =>
    have hreply := hw.trace _ _ hcall
    exact h.write rfl rfl (not_pending hreply (List.mem_singleton_self _) hs)
  | marks hs => exact h.write rfl rfl (mark_not_pending hs)
  | addresses hostname port => exact ⟨h.closed, h.done, h.once⟩
  | creates hjob hopen hcall hrow =>
    obtain ⟨s, hs, rfl⟩ := Option.map_eq_some_iff.mp hrow
    refine ⟨fun _ => ?_, fun _ => ⟨"1", rfl, by decide⟩, h.once⟩
    have hreply := hw.trace _ _ hcall
    exact not_pending hreply (List.mem_singleton_self _) hs
  | @stores cmd forced jobid s hcmd hs =>
    have hstate : downcase s ≠ "pending" := literal_not_pending (Or.inr hs)
    exact ⟨fun _ => hstate, h.done, always_snoc.mpr ⟨h.once, trivial⟩⟩
  | approves hargs hpending hcall =>
    obtain ⟨hid, -⟩ := h.open hpending
    have happroving : downcase "approving" ≠ "pending" :=
      literal_not_pending (Or.inl (by decide))
    refine ⟨fun _ => happroving, fun hsome => ?_, always_snoc.mpr ⟨h.once, trivial⟩⟩
    exact absurd hsome (by simp [hid])

/-- **No statement changes the id of a machine once it is set.** -/
theorem Bound.machine {C : May} {w w' : World} (h : Bound w) {id : String}
    (hid : w.row.instanceId = some id) (hdoes : Does C w w') : w'.row.instanceId = some id := by
  cases hdoes with
  | creates hjob hopen hcall hrow =>
    -- the job of a row with a machine is done
    obtain ⟨job, hdone, htrue⟩ := h.done (by rw [hid]; rfl)
    obtain rfl : _ = job := Option.some.inj (hjob.symm.trans hdone)
    rw [hopen] at htrue
    exact absurd htrue (by decide)
  | calls hreq hallowed => exact hid
  | scripts ssh => exact hid
  | enqueues hjob => exact hid
  | lists hcall hs => exact hid
  | marks hs => exact hid
  | addresses hostname port => exact hid
  | stores hcmd hs => exact hid
  | approves hargs hpending hcall => exact hid

/-! ### Whole runs -/

/-- **A row is bound to one machine for life, if no machine in a reply reads as
pending**: neither one that is listed nor the one a job has made. -/
theorem oneMachine_of_states {w : World} (hnew : w.row.instanceId = none) (hlog : w.trace = [])
    {calls : List Call}
    (hreplies : ∀ c ∈ calls, ∀ reply ∈ c.replies, reply.pending = false) :
    OneMachine w calls := by
  have hempty : Logged (fun reply => reply.pending = false) w := by simp [Logged, hlog]
  have hstart : Bound w := by
    refine ⟨fun h => ?_, fun h => ?_, ?_⟩
    · simp [hnew, hlog] at h
    · simp [hnew] at h
    · rw [hlog]
      exact always_nil
  have hrun : ∀ {calls : List Call},
      (∀ c ∈ calls, ∀ reply ∈ c.replies, reply.pending = false) →
      Logged (fun reply => reply.pending = false) (calls.foldl operate w) ∧
        Bound (calls.foldl operate w) := fun hcalls =>
    inv_calls (A := fun reply => reply.pending = false) rfl
      (fun _ _ _ hans hdoes h => h.does hans hdoes)
      (fun _ _ _ h => ⟨h.closed, h.done, h.once⟩) hempty hstart hcalls
  refine ⟨(hrun hreplies).2.once, ?_⟩
  rintro before after id rfl hid
  -- from where the id is set, the invariant and the id are kept together
  obtain ⟨hlogged, hbound⟩ := hrun fun c hc => hreplies c (List.mem_append_left _ hc)
  have hrest := inv_calls (A := fun reply => reply.pending = false)
    (I := fun w => Bound w ∧ w.row.instanceId = some id) rfl
    (fun _ _ _ hans hdoes h => ⟨h.1.does hans hdoes, h.1.machine h.2 hdoes⟩)
    (fun _ _ _ h => ⟨⟨h.1.closed, h.1.done, h.1.once⟩, h.2⟩) hlogged ⟨hbound, hid⟩
    fun c hc => hreplies c (List.mem_append_right _ hc)
  rw [List.foldl_append]
  exact hrest.2.2

/-! ### The machine a job has made -/

/-- A pending row. -/
def pendingWorld : World where
  row := { id := 1, userId := some 7, serviceOfferingId := some 1, templateId := some 1,
           name := "an-desk", displayname := "desk" }
  catalogue := ⟨[⟨1, some "tpl-1", none, none, none, none⟩], [],
    [⟨1, some "so-1", some 1, some 1000, some 512, none, none⟩]⟩
  otherNames := []
  replies := []
  ssh := []
  trace := []
  queue := []

/-- The reply of a finished deployment job. -/
def finishedJob (id state : String) : Reply :=
  .queryAsyncJobResult (.str "1") (some ⟨some id, some state, some "2013-08-28T02:19:09+0700"⟩)

/-- Deployed, and polled until the machine is there and running. -/
def deployedOnce : List Call :=
  [⟨.deploy, [.job .deploy (some "21")], []⟩,
   ⟨.isCreated, [.queryAsyncJobResult (.str "0") none], []⟩,
   ⟨.isCreated, [finishedJob "vm-1" "Running", listing "Running"], []⟩,
   ⟨.deploy, [.job .deploy (some "22")], []⟩]

/-- The row of that run is bound to one machine. -/
theorem oneMachine_of_deployedOnce : OneMachine pendingWorld deployedOnce :=
  oneMachine_of_states rfl rfl (by decide)

/-- The job has made a machine that reads as pending, and the list cannot be had. -/
def deployedTwice : List Call :=
  [⟨.deploy, [.job .deploy (some "21")], []⟩,
   ⟨.isCreated, [finishedJob "vm-1" "pending", .nil], []⟩,
   ⟨.deploy, [.job .deploy (some "22")], []⟩,
   ⟨.isCreated, [finishedJob "vm-2" "Running", listing "Running"], []⟩]

/-- **Nothing is listed as pending, and yet there is a second deployment and a second
machine**: `isCreated` writes the state of the machine in the job's result as well. -/
theorem second_machine :
    (∀ c ∈ deployedTwice, ∀ reply ∈ c.replies, reply.listsPending = false) ∧
    ¬ OneMachine pendingWorld deployedTwice := by
  refine ⟨by decide, fun h => ?_⟩
  exact absurd h.deployment (by decide)

end BkPlatform.Portal
