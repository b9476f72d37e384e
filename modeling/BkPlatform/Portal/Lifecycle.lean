import BkPlatform.Portal.Instance

/-!
# The life of an instance

The methods of `Instance` that talk to the cloud, the workers that poll it, and
sequences of both on one row.

## Main definitions

* `deploy`, `updateState`, `isCreated`, `start`, `stop`, `destroyVm`,
  `vncToSpiceProtocol` — the methods.
* `vmDeploy`, `vmStart`, `vmStop`, `vmDestroy` — `perform` of the workers.
* `Op`, `Op.run`, `operate` — one call or worker run, and a sequence of them.

## Main results

* `keeps_perform` — what the polls and their writes keep, every worker keeps.
-/

namespace BkPlatform.Portal

open RubyString

/-! ### The methods -/

/-- The zone every instance is deployed to. -/
def zoneId : String := "c70a4033-3a72-4900-8aa3-8f1bee765d4b"

/-- The arguments `deploy` sends; a missing template or service offering is a
method called on nil. -/
def deployArgs (cat : Catalogue) (i : Instance) : Except Raised DeployArgs :=
  match cat.serviceOffering i.serviceOfferingId, cat.template i.templateId with
  | some offering, some template =>
    .ok { serviceofferingid := offering.serviceOfferingId
          templateid := template.templateId
          zoneid := zoneId
          name := i.name
          displayname := i.displayname
          diskofferingid := (cat.diskOffering i.diskOfferingId).map DiskOffering.diskOfferingId }
  | _, _ => .error .noMethodError

/-- `deploy`: deploy a new instance to the cloud. -/
def deploy : Action Bool := do
  let w ← Eff.get
  if w.row.is "pending" then
    match deployArgs w.catalogue w.row with
    | .error e => Eff.raise e
    | .ok args =>
      let res ← postRequest (.deployVirtualMachine args)
      if res = .nil then
        pure false
      else
        let jobid ← jobidOf .deploy res
        updateColumn fun r => { r with jobCreatedId := jobid }
        logStored .deploy false jobid
        updateColumn fun r => { r with state := "approving" }
        let row ← self
        performLater .vmDeploy row
        pure true
  else
    pure false

/-- `updateState`: store the state the cloud lists; `none` stands for the
`false` returned for a destroyed instance and after a failed call. -/
def updateState : Action (Option String) := do
  let row ← self
  if row.is "destroyed" then
    pure none
  else
    let res ← postRequest (.listVirtualMachines row.instanceId)
    if res = .nil then
      pure none
    else
      let state ← listedState res
      updateAttributes fun r => state.map fun s => { r with state := s }
      let row ← self
      pure (some row.state)

/-- `jobstatus.to_bool`, which only a string has. -/
def JobStatus.toBool : JobStatus → Action Bool
  | .str s => pure (Portal.toBool s)
  | .int _ => Eff.raise .noMethodError
  | .missing => Eff.raise .noMethodError

/-- The row after a finished deployment job: the machine's id, date and state,
and `"1"` as the job id, which reads as true from now on. -/
def createdRow (vm : Vm) (r : Instance) : Option Instance :=
  vm.state.map fun s =>
    { r with instanceId := vm.id, createdAt := vm.created, state := s, jobCreatedId := some "1" }

/-- The part of `isCreated` that asks for the deployment job; `false` is an early
return of `false`. -/
def checkCreated (jobCreatedId : String) : Action Bool := do
  let job ← postRequest (.queryAsyncJobResult (some jobCreatedId))
  match job with
  | .nil => pure false
  | .queryAsyncJobResult jobstatus vm =>
    let done ← jobstatus.toBool
    if done = false then
      if jobstatus ≠ .str "0" then
        -- unable to create instance
        updateAttributes fun r => some { r with state := "Error" }
        pure false
      else
        pure false
    else
      match vm with
      | none => Eff.raise .noMethodError
      | some vm =>
        if vm.created.isNone then
          Eff.raise .argumentError
        else
          updateAttributes (createdRow vm)
          pure true
  | _ => Eff.raise .noMethodError

/-- The end of `isCreated`: refresh the state unless the instance is going. -/
def stillThere : Action Bool := do
  let row ← self
  if row.is "destroying" || row.is "destroyed" then
    pure false
  else
    let _ ← updateState
    let row ← self
    if row.is "destroying" || row.is "destroyed" then
      pure false
    else
      pure true

/-- `isCreated`: whether the machine is there. -/
def isCreated : Action Bool := do
  let row ← self
  match row.jobCreatedId with
  | none => pure false
  | some job =>
    if toBool job then
      stillThere
    else
      let finished ← checkCreated job
      if finished then stillThere else pure false

/-- `canStart?`. -/
def canStart : Action Bool := do
  let created ← isCreated
  let row ← self
  pure (created && row.is "stopped")

/-- What `start`, `stop` and `destroy_vm` do once their guard has let them
through: send the command, store its job id with the state it leads to, and
enqueue the worker that waits for it. -/
def sendCommand (req : Instance → Request) (cmd : Command) (forced : Bool) (state : String)
    (later : Option Worker) : Action Bool := do
  let row ← self
  let res ← postRequest (req row)
  if res = .nil then
    pure false
  else
    let jobid ← jobidOf cmd res
    storeJob cmd forced jobid state
    match later with
    | some worker =>
      let row ← self
      performLater worker row
      pure true
    | none => pure true

/-- `start`. -/
def start : Action Bool := do
  let _ ← updateState
  let can ← canStart
  if can then
    sendCommand (fun r => .startVirtualMachine r.instanceId) .start false "starting"
      (some .vmStart)
  else
    pure false

/-- `canStop?`. -/
def canStop : Action Bool := do
  let created ← isCreated
  let row ← self
  pure (created && row.is "running")

/-- `stop forced=false`.  The forced branch marks the instance as stopped at once. -/
def stop (forced : Bool) : Action Bool := do
  let state ← updateState
  if state = none then
    pure false
  else if forced then
    sendCommand (fun r => .stopVirtualMachine r.instanceId true) .stop true "stopped" none
  else
    let can ← canStop
    if can then
      sendCommand (fun r => .stopVirtualMachine r.instanceId false) .stop false "stopping"
        (some .vmStop)
    else
      pure false

/-- `canDestroy?`. -/
def canDestroy : Action Bool := do
  let row ← self
  if row.is "destroying" || row.is "destroyed" then
    pure false
  else
    isCreated

/-- `destroy_vm`. -/
def destroyVm : Action Bool := do
  let state ← updateState
  if state = none then
    pure false
  else
    let can ← canDestroy
    if can then
      sendCommand (fun r => .destroyVirtualMachine r.instanceId) .destroy false "Destroying"
        (some .vmDestroy)
    else
      pure false

/-- The part of `VNCToSPICEProtocol` between `begin` and `rescue`. -/
def callChangeVncToSpice : Action Bool := do
  let res ← sshExec
  match res with
  | .ok hostname port =>
    updateAttributes fun r =>
      match hostname, port with
      | some h, some p => some { r with hostname := h, port := p }
      | _, _ => none
    pure true
  | .status => pure false
  | .raised => Eff.raise .argumentError

/-- `VNCToSPICEProtocol`. -/
def vncToSpiceProtocol : Action Bool := do
  let created ← isCreated
  if created = false then
    pure false
  else
    let state ← updateState
    match state with
    | none => Eff.raise .noMethodError
    | some s =>
      if downcase s ≠ "running" then
        pure false
      else
        Eff.rescue callChangeVncToSpice fun _ => pure false

/-! ### The workers -/

/-- `VMDeploy#perform`. -/
def vmDeploy (snapshot : Instance) : Action Unit := do
  let created ← isCreated
  if created = false && snapshot.state ≠ "error" then
    performLater .vmDeploy snapshot
  else
    let _ ← vncToSpiceProtocol

/-- `VMStart#perform`. -/
def vmStart (snapshot : Instance) : Action Unit := do
  let state ← updateState
  match state with
  | none => performLater .vmStart snapshot
  | some s =>
    if downcase s = "starting" then
      performLater .vmStart snapshot
    else if downcase s = "running" then
      let _ ← vncToSpiceProtocol
    else
      pure ()

/-- `VMStop#perform`. -/
def vmStop (snapshot : Instance) : Action Unit := do
  let state ← updateState
  match state with
  | none => performLater .vmStop snapshot
  | some s =>
    if downcase s = "stopping" then performLater .vmStop snapshot else pure ()

/-- `VMDestroy#perform`: the status is compared with numbers. -/
def vmDestroy (snapshot : Instance) : Action Unit := do
  let job ← postRequest (.queryAsyncJobResult snapshot.jobId)
  match job with
  | .nil => updateAttributes fun r => some { r with state := "Error" }
  | .queryAsyncJobResult jobstatus _ =>
    if jobstatus = .int 2 then
      updateAttributes fun r => some { r with state := "Error" }
    else if jobstatus = .int 0 then
      performLater .vmDestroy snapshot
    else if jobstatus = .int 1 then
      updateAttributes fun r => some { r with state := "Destroyed" }
    else
      pure ()
  | _ => Eff.raise .noMethodError

/-- `perform` of a queued job. -/
def perform (job : Job) : Action Unit :=
  match job.worker with
  | .vmDeploy => vmDeploy job.snapshot
  | .vmStart => vmStart job.snapshot
  | .vmStop => vmStop job.snapshot
  | .vmDestroy => vmDestroy job.snapshot

/-! ### What the workers keep

`VNCToSPICEProtocol` and the workers poll, write down what they are told and enqueue
themselves again: they keep what the polls and these few writes keep. -/

section Keeps

open Eff

variable {I : World → Prop}

theorem keeps_vncToSpiceProtocol (hcreated : Keeps I isCreated)
    (hstate : Keeps I updateState) (hscripts : ∀ w ssh, I w → I { w with ssh := ssh })
    (haddresses : ∀ w hostname port, I w →
      I { w with row := { w.row with hostname := hostname, port := port } }) :
    Keeps I vncToSpiceProtocol := by
  unfold vncToSpiceProtocol
  apply Keeps.bind hcreated
  intro created
  apply Keeps.ite (fun _ => Keeps.pure)
  intro _
  apply Keeps.bind hstate
  intro state
  cases state with
  | none => exact Keeps.raise
  | some s =>
    apply Keeps.ite (fun _ => Keeps.pure)
    intro _
    refine Triple.rescue (M := I) ?_ fun _ => Keeps.pure
    unfold callChangeVncToSpice
    apply Keeps.bind
    · refine Keeps.bind Triple.read fun a => Keeps.bind ?_ fun _ => Keeps.pure
      exact Triple.modify fun w hw => hscripts w _ hw
    intro res
    -- the address the script has printed is written to the row
    cases res with
    | status => exact Keeps.pure
    | raised => exact Keeps.raise
    | ok hostname port =>
      refine Keeps.bind (triple_updateAttributes (fun w row hw hrow => ?_) fun w hw => hw)
        fun _ => Keeps.pure
      split at hrow
      · obtain rfl := Option.some.inj hrow
        exact haddresses w _ _ hw
      · simp at hrow

theorem keeps_perform {job : Job} (hcreated : Keeps I isCreated)
    (hstate : Keeps I updateState) (hspice : Keeps I vncToSpiceProtocol)
    (hlater : Keeps I (performLater job.worker job.snapshot))
    (hquery : Keeps I (postRequest (.queryAsyncJobResult job.snapshot.jobId)))
    (hmark : ∀ s, s = "Error" ∨ s = "Destroyed" →
      Keeps I (updateAttributes fun r => some { r with state := s })) :
    Keeps I (perform job) := by
  obtain ⟨worker, snapshot⟩ := job
  cases worker with
  | vmDeploy =>
    show Keeps I (vmDeploy snapshot)
    unfold vmDeploy
    apply Keeps.bind hcreated
    intro created
    apply Keeps.ite (fun _ => hlater)
    intro _
    exact Keeps.bind hspice fun _ => Keeps.pure
  | vmStart =>
    show Keeps I (vmStart snapshot)
    unfold vmStart
    apply Keeps.bind hstate
    intro state
    cases state with
    | none => exact hlater
    | some s =>
      apply Keeps.ite (fun _ => hlater)
      intro _
      refine Keeps.ite (fun _ => ?_) fun _ => Keeps.pure
      exact Keeps.bind hspice fun _ => Keeps.pure
  | vmStop =>
    show Keeps I (vmStop snapshot)
    unfold vmStop
    apply Keeps.bind hstate
    intro state
    cases state with
    | none => exact hlater
    | some s => exact Keeps.ite (fun _ => hlater) fun _ => Keeps.pure
  | vmDestroy =>
    show Keeps I (vmDestroy snapshot)
    unfold vmDestroy
    apply Keeps.bind hquery
    intro res
    split
    · exact hmark _ (Or.inl rfl)
    · apply Keeps.ite (fun _ => hmark _ (Or.inl rfl))
      intro _
      apply Keeps.ite (fun _ => hlater)
      intro _
      exact Keeps.ite (fun _ => hmark _ (Or.inr rfl)) fun _ => Keeps.pure
    · exact Keeps.raise

end Keeps

/-! ### Sequences of operations -/

/-- A call of a method of the instance, or a run of a worker on it. -/
inductive Op
  | deploy
  | updateState
  | isCreated
  | start
  | stop (forced : Bool)
  | destroyVm
  | vncToSpiceProtocol
  | perform (job : Job)
  deriving DecidableEq, Repr

/-- What an operation does; its result is not used by the next one. -/
def Op.run : Op → Action Unit
  | .deploy => do let _ ← Portal.deploy
  | .updateState => do let _ ← Portal.updateState
  | .isCreated => do let _ ← Portal.isCreated
  | .start => do let _ ← Portal.start
  | .stop forced => do let _ ← Portal.stop forced
  | .destroyVm => do let _ ← Portal.destroyVm
  | .vncToSpiceProtocol => do let _ ← Portal.vncToSpiceProtocol
  | .perform job => Portal.perform job

/-- An operation together with what the outside answers while it runs. -/
structure Call where
  op : Op
  replies : List Reply := []
  ssh : List SshReply := []
  deriving DecidableEq, Repr

/-- One operation on the row: a raise ends it, with what it did so far kept. -/
def operate (w : World) (c : Call) : World :=
  (Eff.run c.op.run { w with replies := c.replies, ssh := c.ssh }).2

end BkPlatform.Portal
