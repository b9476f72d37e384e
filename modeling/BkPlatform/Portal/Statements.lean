import BkPlatform.Portal.Lifecycle

/-!
# What the methods of an instance do

Every method of `Instance` and every worker is made of the same few statements: a
call, a write to the row, a job for the queue.  `Does C` says what each of them does
and when it is reached, and every operation changes the world by such statements only;
so an invariant of an instance is a matter of the single statements.

## Main definitions

* `May` — which commands may be sent and which jobs enqueued.
* `Does C w w'` — one statement within these limits.
* `After C w₀ w` — some number of statements.
* `Op.may` — the limits of an operation.

## Main results

* `after_run` — **every operation is made of these statements.**
* `inv_operate`, `inv_calls` — what the statements keep, the operations and their runs
  keep.
-/

namespace BkPlatform.Portal

open Eff RubyString Relation

/-! ### The statements -/

/-- When a request may be sent: a deployment for a pending row, and the other commands,
a forced stop apart, for a row with a deployment job. -/
def Request.Allowed (row : Instance) : Request → Prop
  | .deployVirtualMachine _ => row.is "pending" = true
  | .startVirtualMachine _ => row.jobCreatedId.isSome = true
  | .stopVirtualMachine _ forced => forced = true ∨ row.jobCreatedId.isSome = true
  | .destroyVirtualMachine _ => row.jobCreatedId.isSome = true
  | .listVirtualMachines _ => True
  | .queryAsyncJobResult _ => True

/-- The limits of a method: which commands it may send, and which jobs enqueue. -/
structure May where
  send : Request → Prop
  enqueue : Job → Prop

/-- What one statement does to the world.  The states written are those of a reply, or
literals other than `pending`. -/
inductive Does (C : May) (w : World) : World → Prop
  /-- A call to the cloud. -/
  | calls {req : Request} (hreq : req.command = none ∨ C.send req) (hallowed : req.Allowed w.row) :
      Does C w (w.afterCall req)
  /-- A call of the script over SSH. -/
  | scripts (ssh : List SshReply) : Does C w { w with ssh := ssh }
  /-- A job for the queue. -/
  | enqueues {job : Job} (hjob : C.enqueue job) : Does C w { w with queue := w.queue ++ [job] }
  /-- The state the cloud has listed. -/
  | lists {id : Option String} {vm : Vm} {s : String}
      (hcall : Event.call (.listVirtualMachines id) (.listVirtualMachines [vm]) ∈ w.trace)
      (hs : vm.state = some s) : Does C w { w with row := { w.row with state := s } }
  /-- The end of a job. -/
  | marks {s : String} (hs : s = "Error" ∨ s = "Destroyed") :
      Does C w { w with row := { w.row with state := s } }
  /-- The address of the SPICE server. -/
  | addresses (hostname port : String) :
      Does C w { w with row := { w.row with hostname := hostname, port := port } }
  /-- The machine of a finished deployment job, as long as the job id does not read as true. -/
  | creates {job : String} {id : Option String} {jobstatus : JobStatus} {vm : Vm} {row : Instance}
      (hjob : w.row.jobCreatedId = some job) (hopen : toBool job = false)
      (hcall : Event.call (.queryAsyncJobResult id) (.queryAsyncJobResult jobstatus (some vm)) ∈
        w.trace)
      (hrow : createdRow vm w.row = some row) : Does C w { w with row := row }
  /-- The job of an accepted command. -/
  | stores {cmd : Command} {forced : Bool} {jobid : Option String} {s : String}
      (hcmd : cmd ≠ .deploy) (hs : s ∈ ["starting", "stopped", "stopping", "Destroying"]) :
      Does C w { w with
        row := { w.row with jobId := jobid, state := s }
        trace := w.trace ++ [.stored cmd forced jobid] }
  /-- The job of an accepted deployment. -/
  | approves {args : DeployArgs} {jobid : Option String}
      (hargs : C.send (.deployVirtualMachine args)) (hpending : w.row.is "pending" = true)
      (hcall : Event.call (.deployVirtualMachine args) (.job .deploy jobid) ∈ w.trace) :
      Does C w { w with
        row := { w.row with jobCreatedId := jobid, state := "approving" }
        trace := w.trace ++ [.stored .deploy false jobid] }

/-- No statement touches what the validations look at. -/
theorem Does.valid {C : May} {w w' : World} (hdoes : Does C w w') :
    w'.row.valid w'.catalogue w'.otherNames = w.row.valid w.catalogue w.otherNames := by
  cases hdoes with
  | creates hjob hopen hcall hrow =>
    obtain ⟨s, -, rfl⟩ := Option.map_eq_some_iff.mp hrow
    rfl
  | calls hreq hallowed => rfl
  | scripts ssh => rfl
  | enqueues hjob => rfl
  | lists hcall hs => rfl
  | marks hs => rfl
  | addresses hostname port => rfl
  | stores hcmd hs => rfl
  | approves hargs hpending hcall => rfl

/-- Some number of statements after `w₀`. -/
abbrev After (C : May) (w₀ : World) : World → Prop := ReflTransGen (Does C) w₀

/-! ### The statements of the methods -/

section Methods

variable {C : May} {w₀ : World} {P : Instance → Prop}

/-- A property of the row that does not look at its state. -/
def StateFree (P : Instance → Prop) : Prop := ∀ row s, P row → P { row with state := s }

/-- A call is logged, and leaves the row as it is. -/
theorem after_postRequest {req : Request} (hreq : req.command = none ∨ C.send req)
    (hallowed : ∀ row, P row → req.Allowed row) :
    Triple (fun w => After C w₀ w ∧ P w.row) (postRequest req)
      (fun reply w => (After C w₀ w ∧ Event.call req reply ∈ w.trace) ∧ P w.row) (After C w₀) := by
  refine triple_postRequest fun w hw => ⟨⟨?_, ?_⟩, hw.2⟩
  · exact hw.1.tail (.calls hreq (hallowed w.row hw.2))
  · exact List.mem_append_right _ List.mem_cons_self

/-- Asking the cloud something is allowed for every row. -/
theorem after_query {req : Request} (hreq : req.command = none) :
    Triple (fun w => After C w₀ w ∧ P w.row) (postRequest req)
      (fun reply w => (After C w₀ w ∧ Event.call req reply ∈ w.trace) ∧ P w.row) (After C w₀) := by
  refine after_postRequest (Or.inl hreq) fun row _ => ?_
  cases req with
  | listVirtualMachines id => trivial
  | queryAsyncJobResult jobid => trivial
  | deployVirtualMachine args => simp [Request.command] at hreq
  | startVirtualMachine id => simp [Request.command] at hreq
  | stopVirtualMachine id forced => simp [Request.command] at hreq
  | destroyVirtualMachine id => simp [Request.command] at hreq

/-- A write to the row that is a statement wherever `Q` holds. -/
theorem after_updateAttributes {f : Instance → Option Instance} {Q : World → Prop}
    (hf : ∀ w row, Q w → f w.row = some row → Does C w { w with row := row } ∧ P row) :
    Triple (fun w => After C w₀ w ∧ Q w) (updateAttributes f)
      (fun _ w => After C w₀ w ∧ P w.row) (After C w₀) := by
  refine triple_updateAttributes (fun w row hw hrow => ?_) fun w hw => hw.1
  obtain ⟨hdoes, hP⟩ := hf w row hw.2 hrow
  exact ⟨hw.1.tail hdoes, hP⟩

theorem after_performLater {worker : Worker} {snapshot : Instance}
    (hjob : C.enqueue ⟨worker, snapshot⟩) : Keeps (After C w₀) (performLater worker snapshot) :=
  Triple.modify fun _ hw => hw.tail (.enqueues hjob)

theorem after_updateState (hP : StateFree P) :
    Triple (fun w => After C w₀ w ∧ P w.row) updateState (fun _ w => After C w₀ w ∧ P w.row)
      (After C w₀) := by
  unfold updateState
  apply Triple.bind read_self
  intro row
  refine Triple.ite (fun _ => Triple.pure fun w hw => hw) ?_
  intro _
  apply Triple.bind (after_query rfl)
  intro res
  refine Triple.ite (fun _ => Triple.pure fun w hw => ⟨hw.1.1, hw.2⟩) ?_
  intro _
  apply Triple.bind (triple_listedState.weaken (fun w hw => hw) (fun _ _ hw => hw)
    fun w hw => hw.1.1)
  intro state
  -- the state written is that of the machine in the reply
  refine Triple.bind (M := fun _ w => After C w₀ w ∧ P w.row) ?_ fun _ => ?_
  · refine (after_updateAttributes (Q := fun w => ∃ vm,
      Event.call (.listVirtualMachines row.instanceId) (.listVirtualMachines [vm]) ∈ w.trace ∧
        vm.state = state ∧ P w.row) ?_).pre ?_
    · rintro w row' ⟨vm, hcall, hvm, hw⟩ hrow
      obtain ⟨s, rfl, rfl⟩ := Option.map_eq_some_iff.mp hrow
      exact ⟨.lists hcall hvm, hP _ s hw⟩
    · rintro w ⟨⟨⟨hw, hcall⟩, hrow⟩, vm, rfl, hvm⟩
      exact ⟨hw, vm, hcall, hvm, hrow⟩
  · exact Triple.bind read_self fun row' => Triple.pure fun w hw => hw

theorem after_stillThere (hP : StateFree P) :
    Triple (fun w => After C w₀ w ∧ P w.row) stillThere (fun _ w => After C w₀ w ∧ P w.row)
      (After C w₀) := by
  unfold stillThere
  apply Triple.bind read_self
  intro row
  refine Triple.ite (fun _ => Triple.pure fun w hw => hw) ?_
  intro _
  apply Triple.bind (after_updateState hP)
  intro _
  apply Triple.bind read_self
  intro row'
  exact Triple.ite (fun _ => Triple.pure fun w hw => hw) fun _ => Triple.pure fun w hw => hw

/-- The row has a deployment job. -/
def Instance.HasJob (i : Instance) : Prop := i.jobCreatedId.isSome = true

theorem stateFree_hasJob : StateFree Instance.HasJob := fun _ _ h => h

theorem stateFree_true : StateFree fun _ => True := fun _ _ _ => trivial

/-- Polling the state, whatever the row. -/
theorem after_poll : Keeps (After C w₀) updateState :=
  (after_updateState stateFree_true).weaken (fun _ hw => ⟨hw, trivial⟩) (fun _ _ hw => hw.1)
    fun _ hw => hw

theorem triple_toBool {Q : World → Prop} {jobstatus : JobStatus} : Keeps Q jobstatus.toBool := by
  cases jobstatus with
  | str s => exact Keeps.pure
  | int n => exact Keeps.raise
  | missing => exact Keeps.raise

/-- Asking for an open job marks the row or fills it in. -/
theorem after_checkCreated {job : String} (hopen : toBool job = false) :
    Triple (fun w => After C w₀ w ∧ w.row.jobCreatedId = some job) (checkCreated job)
      (fun _ w => After C w₀ w ∧ w.row.HasJob) (After C w₀) := by
  have hsome : ∀ w : World, w.row.jobCreatedId = some job → w.row.HasJob := by
    intro w hw
    rw [Instance.HasJob, hw]
    rfl
  have hdone : ∀ w : World, (After C w₀ w ∧ w.row.HasJob) → After C w₀ w ∧ w.row.HasJob :=
    fun w hw => hw
  unfold checkCreated
  apply Triple.bind (after_query (P := fun row => row.jobCreatedId = some job) rfl)
  intro res
  split
  · exact Triple.pure fun w hw => ⟨hw.1.1, hsome w hw.2⟩
  · next jobstatus vm =>
    apply Triple.bind (triple_toBool.weaken (fun w hw => hw) (fun _ _ hw => hw) fun w hw => hw.1.1)
    intro done
    refine Triple.ite (fun _ => ?_) fun _ => ?_
    · -- the job is not done: a failed one marks the row
      refine Triple.ite (fun _ => ?_) fun _ => Triple.pure fun w hw => ⟨hw.1.1, hsome w hw.2⟩
      refine Triple.bind (M := fun _ w => After C w₀ w ∧ w.row.HasJob) ?_
        fun _ => Triple.pure hdone
      refine (after_updateAttributes (Q := fun w => w.row.HasJob) ?_).pre
        fun w hw => ⟨hw.1.1, hsome w hw.2⟩
      intro w row hw hrow
      obtain rfl := Option.some.inj hrow
      exact ⟨.marks (Or.inl rfl), hw⟩
    · -- the job is done: the row is filled in from its machine
      split
      · exact Triple.raise fun w hw => hw.1.1
      · next vm =>
        refine Triple.ite (fun _ => Triple.raise fun w hw => hw.1.1) fun _ => ?_
        refine Triple.bind (M := fun _ w => After C w₀ w ∧ w.row.HasJob) ?_
          fun _ => Triple.pure hdone
        refine (after_updateAttributes (Q := fun w => w.row.jobCreatedId = some job ∧
          Event.call (.queryAsyncJobResult (some job)) (.queryAsyncJobResult jobstatus (some vm)) ∈
            w.trace) ?_).pre fun w hw => ⟨hw.1.1, hw.2, hw.1.2⟩
        rintro w row ⟨hjob, hcall⟩ hrow
        refine ⟨.creates hjob hopen hcall hrow, ?_⟩
        obtain ⟨s, -, rfl⟩ := Option.map_eq_some_iff.mp hrow
        rfl
  · exact Triple.raise fun w hw => hw.1.1

/-- `isCreated` agrees only for a row with a deployment job. -/
theorem after_isCreated :
    Triple (After C w₀) isCreated
      (fun created w => After C w₀ w ∧ (created = true → w.row.HasJob)) (After C w₀) := by
  have hthere : Triple (fun w => After C w₀ w ∧ w.row.HasJob) stillThere
      (fun created w => After C w₀ w ∧ (created = true → w.row.HasJob)) (After C w₀) :=
    (after_stillThere stateFree_hasJob).post fun _ w hw => ⟨hw.1, fun _ => hw.2⟩
  unfold isCreated
  apply Triple.bind triple_self
  intro row
  split
  · exact Triple.pure fun w hw => ⟨hw.1, by simp⟩
  · next job hjob =>
    have hrow : ∀ w, (After C w₀ w ∧ row = w.row) → w.row.jobCreatedId = some job := by
      rintro w ⟨-, rfl⟩
      exact hjob
    refine Triple.ite (fun _ => hthere.pre fun w hw => ⟨hw.1, ?_⟩) fun hopen => ?_
    · rw [Instance.HasJob, hrow w hw]
      rfl
    · refine Triple.bind ((after_checkCreated (by simpa using hopen)).pre
        fun w hw => ⟨hw.1, hrow w hw⟩) fun finished => ?_
      exact Triple.ite (fun _ => hthere) fun _ => Triple.pure fun w hw => ⟨hw.1, by simp⟩

/-- A guard that asks for one state of a created instance. -/
theorem after_guard {state : String} :
    Triple (After C w₀) (do
        let created ← isCreated
        let row ← self
        pure (created && row.is state))
      (fun can w => After C w₀ w ∧ (can = true → w.row.HasJob)) (After C w₀) := by
  apply Triple.bind after_isCreated
  intro created
  refine Triple.bind read_self fun row => Triple.pure fun w hw => ⟨hw.1, fun hcan => ?_⟩
  exact hw.2 (Bool.and_eq_true_iff.mp hcan).1

/-- What follows an allowed guard. -/
theorem after_sendCommand {req : Instance → Request} {cmd : Command} {forced : Bool}
    {state : String} {later : Option Worker} (hreq : ∀ r, C.send (req r))
    (hlater : ∀ worker ∈ later, ∀ r, C.enqueue ⟨worker, r⟩)
    (hallowed : ∀ r row, P row → (req r).Allowed row) (hcmd : cmd ≠ .deploy)
    (hstate : state ∈ ["starting", "stopped", "stopping", "Destroying"]) :
    Triple (fun w => After C w₀ w ∧ P w.row) (sendCommand req cmd forced state later)
      (fun _ => After C w₀) (After C w₀) := by
  unfold sendCommand storeJob
  apply Triple.bind read_self
  intro row
  apply Triple.bind (after_postRequest (Or.inr (hreq row)) (hallowed row))
  intro res
  refine Triple.ite (fun _ => Triple.pure fun w hw => hw.1.1) ?_
  intro _
  apply Triple.bind (keeps_jobidOf.weaken (fun w hw => hw.1.1) (fun _ _ hw => hw) fun w hw => hw)
  intro jobid
  -- the write and its log entry are one statement
  refine Triple.bind (M := fun _ => After C w₀) (Triple.bind
    (M := fun _ w => ∃ row, After C w₀ { w with row := row } ∧
      w.row = { row with jobId := jobid, state := state })
    (triple_updateAttributes (fun w row' hw hrow => ?_) fun w hw => hw)
    fun _ => Triple.modify ?_) fun _ => ?_
  · exact ⟨w.row, hw, (Option.some.inj hrow).symm⟩
  · rintro w ⟨row', hw, hrow⟩
    have hdoes := hw.tail (@Does.stores C _ cmd forced jobid state hcmd hstate)
    simp only at hdoes
    rwa [← hrow] at hdoes
  cases later with
  | none => exact Keeps.pure
  | some worker =>
    apply Triple.bind read_self
    intro row'
    exact Triple.bind (after_performLater (hlater worker rfl row')) fun _ => Keeps.pure

/-- A command behind a guard that has asked whether the instance is created. -/
theorem after_guarded {can : Bool} {req : Instance → Request} {cmd : Command} {forced : Bool}
    {state : String} {later : Option Worker} (hreq : ∀ r, C.send (req r))
    (hlater : ∀ worker ∈ later, ∀ r, C.enqueue ⟨worker, r⟩)
    (hallowed : ∀ r (row : Instance), row.HasJob → (req r).Allowed row) (hcmd : cmd ≠ .deploy)
    (hstate : state ∈ ["starting", "stopped", "stopping", "Destroying"]) :
    Triple (fun w => After C w₀ w ∧ (can = true → w.row.HasJob))
      (if can then sendCommand req cmd forced state later else pure false)
      (fun _ => After C w₀) (After C w₀) := by
  refine Triple.ite (fun hcan => ?_) fun _ => Triple.pure fun w hw => hw.1
  exact (after_sendCommand hreq hlater hallowed hcmd hstate).pre fun w hw => ⟨hw.1, hw.2 hcan⟩

theorem after_start (hC : ∀ id, C.send (.startVirtualMachine id))
    (hlater : ∀ r, C.enqueue ⟨.vmStart, r⟩) : Keeps (After C w₀) start := by
  unfold start canStart
  apply Triple.bind after_poll
  intro _
  apply Triple.bind after_guard
  intro can
  exact after_guarded (fun r => hC r.instanceId) (by simpa using hlater) (fun _ _ hjob => hjob)
    (by decide) (by decide)

theorem after_stop {forced : Bool} (hC : ∀ id, C.send (.stopVirtualMachine id forced))
    (hlater : ∀ r, C.enqueue ⟨.vmStop, r⟩) : Keeps (After C w₀) (stop forced) := by
  unfold stop canStop
  apply Triple.bind after_poll
  intro state
  apply Keeps.ite (fun _ => Keeps.pure)
  intro _
  refine Triple.ite (fun hforced => ?_) fun hforced => ?_
  · -- a forced stop is sent whatever the row
    subst hforced
    exact (after_sendCommand (P := fun _ => True) (fun r => hC r.instanceId)
      (by simp) (fun _ _ _ => Or.inl rfl) (by decide) (by decide)).pre fun w hw => ⟨hw, trivial⟩
  · obtain rfl : forced = false := by simpa using hforced
    apply Triple.bind after_guard
    intro can
    exact after_guarded (fun r => hC r.instanceId) (by simpa using hlater)
      (fun _ _ hjob => Or.inr hjob) (by decide) (by decide)

theorem after_destroyVm (hC : ∀ id, C.send (.destroyVirtualMachine id))
    (hlater : ∀ r, C.enqueue ⟨.vmDestroy, r⟩) : Keeps (After C w₀) destroyVm := by
  unfold destroyVm canDestroy
  apply Triple.bind after_poll
  intro state
  apply Keeps.ite (fun _ => Keeps.pure)
  intro _
  refine Triple.bind (M := fun can w => After C w₀ w ∧ (can = true → w.row.HasJob)) ?_
    fun can => ?_
  · apply Triple.bind read_self
    intro row
    refine Triple.ite (fun _ => Triple.pure fun w hw => ⟨hw, by simp⟩) ?_
    intro _
    exact after_isCreated
  exact after_guarded (fun r => hC r.instanceId) (by simpa using hlater) (fun _ _ hjob => hjob)
    (by decide) (by decide)

theorem after_deploy (hC : ∀ args, C.send (.deployVirtualMachine args))
    (hlater : ∀ r, r.state = "approving" → C.enqueue ⟨.vmDeploy, r⟩) :
    Keeps (After C w₀) deploy := by
  unfold deploy
  apply Triple.bind Triple.get
  intro a
  refine Triple.ite (fun hpending => ?_) fun _ => Triple.pure fun w hw => hw.1
  split
  · exact Triple.raise fun w hw => hw.1
  next args _ =>
  refine Triple.bind ((after_postRequest (P := fun row => row.is "pending" = true)
    (Or.inr (hC args)) fun _ hrow => hrow).pre ?_) fun res => ?_
  · rintro w ⟨hw, rfl⟩
    exact ⟨hw, hpending⟩
  refine Triple.ite (fun _ => Triple.pure fun w hw => hw.1.1) ?_
  intro _
  refine Triple.bind (M := fun jobid w => (After C w₀ w ∧ w.row.is "pending" = true) ∧
    Event.call (.deployVirtualMachine args) (.job .deploy jobid) ∈ w.trace) ?_ fun jobid => ?_
  · unfold jobidOf
    split
    · next cmd jobid =>
      refine Triple.ite (fun hcmd => ?_) fun _ => Triple.raise fun w hw => hw.1.1
      subst hcmd
      exact Triple.pure fun w hw => ⟨⟨hw.1.1, hw.2⟩, hw.1.2⟩
    · exact Triple.raise fun w hw => hw.1.1
  -- the two writes and the log entry between them are one statement
  refine Triple.bind (M := fun _ w => ∃ row, After C w₀ { w with row := row } ∧
    row.is "pending" = true ∧
    Event.call (.deployVirtualMachine args) (.job .deploy jobid) ∈ w.trace ∧
    w.row = { row with jobCreatedId := jobid }) ?_ fun _ => ?_
  · exact Triple.modify fun w hw => ⟨w.row, hw.1.1, hw.1.2, hw.2, rfl⟩
  refine Triple.bind (M := fun _ w => ∃ row trace,
    After C w₀ { w with row := row, trace := trace } ∧ row.is "pending" = true ∧
    Event.call (.deployVirtualMachine args) (.job .deploy jobid) ∈ trace ∧
    w.row = { row with jobCreatedId := jobid } ∧
    w.trace = trace ++ [.stored .deploy false jobid]) ?_ fun _ => ?_
  · apply Triple.modify
    rintro w ⟨row, hw, hrow, hmem, heq⟩
    exact ⟨row, w.trace, hw, hrow, hmem, heq, rfl⟩
  refine Triple.bind (M := fun _ w => After C w₀ w ∧ w.row.state = "approving")
    (Triple.modify ?_) fun _ => ?_
  · rintro w ⟨row, trace, hw, hrow, hmem, heq, htrace⟩
    have hdoes := hw.tail (.approves (hC args) hrow hmem)
    simp only [← htrace] at hdoes
    exact ⟨by simpa only [heq] using hdoes, rfl⟩
  apply Triple.bind triple_self
  intro row
  refine Triple.bind (M := fun _ => After C w₀) ?_ fun _ => Keeps.pure
  rintro w ⟨⟨hw, hstate⟩, rfl⟩
  exact after_performLater (hlater w.row hstate) w hw

theorem after_vncToSpiceProtocol : Keeps (After C w₀) vncToSpiceProtocol := by
  apply keeps_vncToSpiceProtocol (after_isCreated.post fun _ w hw => hw.1) after_poll
  · exact fun w ssh hw => hw.tail (.scripts ssh)
  · exact fun w hostname port hw => hw.tail (.addresses hostname port)

/-- Marking the row at the end of a job. -/
theorem after_mark {s : String} (hs : s = "Error" ∨ s = "Destroyed") :
    Keeps (After C w₀) (updateAttributes fun r => some { r with state := s }) := by
  refine triple_updateAttributes (fun w row hw hrow => ?_) fun w hw => hw
  obtain rfl := Option.some.inj hrow
  exact hw.tail (.marks hs)

/-- The workers send no command, and enqueue nothing but the job they are run for. -/
theorem after_perform {job : Job} (hjob : C.enqueue job) : Keeps (After C w₀) (perform job) := by
  apply keeps_perform (after_isCreated.post fun _ w hw => hw.1) after_poll after_vncToSpiceProtocol
    (after_performLater hjob)
  · exact (after_query (P := fun _ => True) rfl).weaken (fun w hw => ⟨hw, trivial⟩)
      (fun _ w hw => hw.1.1) fun w hw => hw
  · exact fun s hs => after_mark hs

end Methods

/-! ### Operations -/

/-- The request an operation is there for. -/
def Op.sends : Op → Request → Prop
  | .deploy, .deployVirtualMachine _ => True
  | .start, .startVirtualMachine _ => True
  | .stop forced, .stopVirtualMachine _ forced' => forced' = forced
  | .destroyVm, .destroyVirtualMachine _ => True
  | _, _ => False

/-- The jobs an operation may enqueue: the worker that waits for it, or the job of the
worker itself again. -/
def Op.enqueues : Op → Job → Prop
  | .deploy, job => job.worker = .vmDeploy ∧ job.snapshot.state = "approving"
  | .start, job => job.worker = .vmStart
  | .stop _, job => job.worker = .vmStop
  | .destroyVm, job => job.worker = .vmDestroy
  | .perform job', job => job = job'
  | _, _ => False

/-- The limits of an operation. -/
def Op.may (op : Op) : May := ⟨op.sends, op.enqueues⟩

/-- The limits of a poll. -/
def May.nothing : May := ⟨fun _ => False, fun _ => False⟩

/-- **Every operation is made of the statements**, within its limits. -/
theorem after_run (op : Op) (w₀ : World) : Keeps (After op.may w₀) op.run := by
  cases op with
  | deploy =>
    exact Triple.bind (after_deploy (fun _ => trivial) fun _ hstate => ⟨rfl, hstate⟩)
      fun _ => Keeps.pure
  | updateState => exact Triple.bind after_poll fun _ => Keeps.pure
  | isCreated => exact Triple.bind (after_isCreated.post fun _ w hw => hw.1) fun _ => Keeps.pure
  | start => exact Triple.bind (after_start (fun _ => trivial) fun _ => rfl) fun _ => Keeps.pure
  | stop forced => exact Triple.bind (after_stop (fun _ => rfl) fun _ => rfl) fun _ => Keeps.pure
  | destroyVm =>
    exact Triple.bind (after_destroyVm (fun _ => trivial) fun _ => rfl) fun _ => Keeps.pure
  | vncToSpiceProtocol => exact Triple.bind after_vncToSpiceProtocol fun _ => Keeps.pure
  | perform job => exact after_perform rfl

/-- What the statements keep, an operation keeps. -/
theorem inv_operate {I : World → Prop} {w : World} {c : Call}
    (hI : ∀ w w', Does c.op.may w w' → I w → I w')
    (hw : I { w with replies := c.replies, ssh := c.ssh }) : I (operate w c) :=
  (Keeps.of_steps (after_run c.op) hI).state hw

/-! ### The answers -/

/-- Every answer satisfies `A`: those still to come and those in the log. -/
structure Answered (A : Reply → Prop) (w : World) : Prop where
  replies : ∀ reply ∈ w.replies, A reply
  trace : ∀ req reply, Event.call req reply ∈ w.trace → A reply

/-- An answer in the log was still to come before, or is that of a failed call. -/
theorem Answered.does {C : May} {A : Reply → Prop} (hnil : A .nil) {w w' : World}
    (h : Answered A w) (hdoes : Does C w w') : Answered A w' := by
  have hstored : ∀ cmd forced jobid req reply,
      Event.call req reply ∈ w.trace ++ [.stored cmd forced jobid] → A reply := by
    intro cmd forced jobid req reply hmem
    have hold : Event.call req reply ∈ w.trace := by simpa using hmem
    exact h.trace req reply hold
  cases hdoes with
  | @calls req hreq hallowed =>
    have hhead : A (w.replies.headD .nil) := by
      cases hreplies : w.replies with
      | nil => exact hnil
      | cons reply rest => exact h.replies reply (by rw [hreplies]; exact List.mem_cons_self)
    refine ⟨fun reply hreply => h.replies reply (List.mem_of_mem_tail hreply), ?_⟩
    intro req' reply hmem
    rcases List.mem_append.mp hmem with hold | hnew
    · exact h.trace req' reply hold
    · obtain ⟨-, rfl⟩ := Event.call.inj (List.mem_singleton.mp hnew)
      exact hhead
  | stores hcmd hs => exact ⟨h.replies, hstored _ _ _⟩
  | approves hargs hpending hcall => exact ⟨h.replies, hstored _ _ _⟩
  | scripts ssh => exact ⟨h.replies, h.trace⟩
  | enqueues hjob => exact ⟨h.replies, h.trace⟩
  | lists hcall hs => exact ⟨h.replies, h.trace⟩
  | marks hs => exact ⟨h.replies, h.trace⟩
  | addresses hostname port => exact ⟨h.replies, h.trace⟩
  | creates hjob hopen hcall hrow => exact ⟨h.replies, h.trace⟩

/-- All answers logged so far satisfy `A`. -/
def Logged (A : Reply → Prop) (w : World) : Prop :=
  ∀ req reply, Event.call req reply ∈ w.trace → A reply

section Runs

variable {A : Reply → Prop} {I : World → Prop}

/-- What the statements keep as long as all answers satisfy `A`, one operation keeps. -/
theorem inv_answered (hnil : A .nil)
    (hI : ∀ C w w', Answered A w → Does C w w' → I w → I w')
    (hfree : ∀ w replies ssh, I w → I { w with replies := replies, ssh := ssh }) {w : World}
    {c : Call} (hlog : Logged A w) (hw : I w) (hc : ∀ reply ∈ c.replies, A reply) :
    Logged A (operate w c) ∧ I (operate w c) := by
  have hall : Answered A (operate w c) ∧ I (operate w c) := by
    apply inv_operate (I := fun w => Answered A w ∧ I w)
    · rintro w w' hdoes ⟨hans, hw⟩
      exact ⟨hans.does hnil hdoes, hI _ _ _ hans hdoes hw⟩
    · exact ⟨⟨hc, hlog⟩, hfree w _ _ hw⟩
  exact ⟨hall.1.trace, hall.2⟩

/-- The same for every run. -/
theorem inv_calls (hnil : A .nil)
    (hI : ∀ C w w', Answered A w → Does C w w' → I w → I w')
    (hfree : ∀ w replies ssh, I w → I { w with replies := replies, ssh := ssh }) {w : World}
    {calls : List Call} (hlog : Logged A w) (hw : I w)
    (hcalls : ∀ c ∈ calls, ∀ reply ∈ c.replies, A reply) :
    Logged A (calls.foldl operate w) ∧ I (calls.foldl operate w) := by
  induction calls generalizing w with
  | nil => exact ⟨hlog, hw⟩
  | cons c calls ih =>
    obtain ⟨hlog', hw'⟩ := inv_answered hnil hI hfree hlog hw (hcalls c List.mem_cons_self)
    exact ih hlog' hw' fun d hd => hcalls d (List.mem_cons_of_mem c hd)

end Runs

end BkPlatform.Portal
