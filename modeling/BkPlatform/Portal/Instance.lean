import BkPlatform.Lib.Effect
import BkPlatform.Lib.RubyString
import Mathlib.Data.Int.Notation

/-!
# Instances of the portal and the cloud they are deployed to

The `instances` row, the catalogue tables its validations look into, what the
CloudStack API answers, and the world an `Instance` method runs in: the row, the
answers still to come, the log of the calls made so far and the worker queue.

A method works on one row and is not interleaved with another, so the record in
memory and the row agree between two statements; `updateAttributes` validates
and writes at once, as `update_attributes!` does.

## Main definitions

* `Instance` — a row of the `instances` table.
* `Request`, `Reply` — a CloudStack call and what `postRequest` makes of the answer.
* `World`, `Action` — what a method of `Instance` reads and changes.
* `Instance.valid` — the validations of the model.
* `postRequest`, `updateAttributes`, `updateColumn` — the primitives the methods use.

## Main results

* `triple_postRequest` — a call is logged together with its answer and changes
  nothing else.
* `triple_updateAttributes` — an update that goes through writes the row, one that
  fails leaves the world as it was.
-/

namespace BkPlatform.Portal

open RubyString

/-! ### Rows -/

/-- A row of the `templates` table. -/
structure Template where
  id : ℕ
  templateId : Option String
  name : Option String
  ostypename : Option String
  details : Option String
  createdAt : Option String
  deriving DecidableEq, Repr

/-- A row of the `disk_offerings` table. -/
structure DiskOffering where
  id : ℕ
  diskOfferingId : Option String
  disksize : Option String
  storagetype : Option String
  createdAt : Option String
  deriving DecidableEq, Repr

/-- A row of the `service_offerings` table. -/
structure ServiceOffering where
  id : ℕ
  serviceOfferingId : Option String
  cpunumber : Option ℤ
  cpuspeed : Option ℤ
  memory : Option ℤ
  offerha : Option Bool
  createdAt : Option String
  deriving DecidableEq, Repr

/-- The three tables an instance is chosen from. -/
structure Catalogue where
  templates : List Template
  diskOfferings : List DiskOffering
  serviceOfferings : List ServiceOffering
  deriving DecidableEq, Repr

/-- `belongs_to :template`. -/
def Catalogue.template (cat : Catalogue) (id : Option ℕ) : Option Template :=
  cat.templates.find? fun t => some t.id == id

/-- `belongs_to :disk_offering`. -/
def Catalogue.diskOffering (cat : Catalogue) (id : Option ℕ) : Option DiskOffering :=
  cat.diskOfferings.find? fun d => some d.id == id

/-- `belongs_to :service_offering`. -/
def Catalogue.serviceOffering (cat : Catalogue) (id : Option ℕ) : Option ServiceOffering :=
  cat.serviceOfferings.find? fun s => some s.id == id

/-- A row of the `instances` table, with the defaults of the schema. -/
structure Instance where
  id : ℕ
  userId : Option ℕ := none
  instanceId : Option String := none
  jobCreatedId : Option String := none
  jobId : Option String := none
  serviceOfferingId : Option ℕ := none
  diskOfferingId : Option ℕ := none
  templateId : Option ℕ := none
  name : String := ""
  displayname : String := ""
  hostname : String := ""
  port : String := ""
  state : String := "pending"
  createdAt : Option String := none
  deriving DecidableEq, Repr

/-- `is_…?` of `method_missing`: the state compared without regard to case. -/
def Instance.is (i : Instance) (state : String) : Bool := downcase i.state == downcase state

theorem Instance.is_iff {i : Instance} {state : String} :
    i.is state = true ↔ downcase i.state = downcase state := beq_iff_eq

/-- `String#to_bool` of the initializer: some line of the string reads as true. -/
def toBool (s : String) : Bool :=
  (lines s).any fun l => ["true", "t", "yes", "y", "1"].contains (downcase l)

/-- `/\A[a-zA-Z0-9-]+\z/`. -/
def displaynameFormat (s : String) : Bool :=
  s != "" && s.toList.all fun c => c.isAlphanum || c == '-'

/-- The validations of `Instance`; `otherNames` are the names of the other rows. -/
def Instance.valid (cat : Catalogue) (otherNames : List String) (i : Instance) : Bool :=
  !isBlank i.name && !otherNames.contains i.name &&
  !isBlank i.displayname && displaynameFormat i.displayname &&
  i.serviceOfferingId.isSome && i.templateId.isSome &&
  (cat.serviceOffering i.serviceOfferingId).isSome &&
  (i.diskOfferingId.isNone || (cat.diskOffering i.diskOfferingId).isSome)

/-! ### The cloud -/

/-- The commands that change a virtual machine. -/
inductive Command
  | deploy
  | start
  | stop
  | destroy
  deriving DecidableEq, Repr

/-- The arguments of `deployVirtualMachine`. -/
structure DeployArgs where
  serviceofferingid : Option String
  templateid : Option String
  zoneid : String
  name : String
  displayname : String
  diskofferingid : Option (Option String)
  deriving DecidableEq, Repr

/-- A request to the CloudStack API. -/
inductive Request
  | listVirtualMachines (id : Option String)
  | queryAsyncJobResult (jobid : Option String)
  | deployVirtualMachine (args : DeployArgs)
  | startVirtualMachine (id : Option String)
  | stopVirtualMachine (id : Option String) (forced : Bool)
  | destroyVirtualMachine (id : Option String)
  deriving DecidableEq, Repr

/-- The command a request carries, if it is one. -/
def Request.command : Request → Option Command
  | .deployVirtualMachine _ => some .deploy
  | .startVirtualMachine _ => some .start
  | .stopVirtualMachine _ _ => some .stop
  | .destroyVirtualMachine _ => some .destroy
  | .listVirtualMachines _ => none
  | .queryAsyncJobResult _ => none

/-- A `virtualmachine` element of a reply; `created` is absent also when it is not
an ISO 8601 date. -/
structure Vm where
  id : Option String
  state : Option String
  created : Option String
  deriving DecidableEq, Repr

/-- The value of `jobstatus` as `Hash.from_xml` types it. -/
inductive JobStatus
  | str (s : String)
  | int (n : ℤ)
  | missing
  deriving DecidableEq, Repr

/-- What `postRequest` returns: `nil` on a connection or HTTP failure, else the
parsed body.  A list has its elements, of which `Hash.from_xml` makes no key, a
hash or an array; any other body is `malformed`, one without the keys read from it. -/
inductive Reply
  | nil
  | listVirtualMachines (vms : List Vm)
  | job (cmd : Command) (jobid : Option String)
  | queryAsyncJobResult (jobstatus : JobStatus) (virtualmachine : Option Vm)
  | malformed
  deriving DecidableEq, Repr

/-- A list of the one machine, in the given state. -/
def listing (state : String) : Reply := .listVirtualMachines [⟨some "vm-1", some state, none⟩]

/-- What the SSH call of `VNCToSPICEProtocol` yields: the parsed `message` of an
`OK` status, another status, or an exception. -/
inductive SshReply
  | ok (hostname port : Option String)
  | status
  | raised
  deriving DecidableEq, Repr

/-! ### The world of a method -/

/-- The exceptions a method may raise. -/
inductive Raised
  | noMethodError
  | typeError
  | argumentError
  | recordInvalid
  | statementInvalid
  deriving DecidableEq, Repr

/-- The worker classes that act on an instance. -/
inductive Worker
  | vmDeploy
  | vmStart
  | vmStop
  | vmDestroy
  deriving DecidableEq, Repr

/-- A queued job: the worker and the row as it was when the job was enqueued. -/
structure Job where
  worker : Worker
  snapshot : Instance
  deriving DecidableEq, Repr

/-- What the log records. -/
inductive Event
  /-- A CloudStack call and the answer to it. -/
  | call (req : Request) (reply : Reply)
  /-- The job id of an accepted command has been written to the row. -/
  | stored (cmd : Command) (forced : Bool) (jobid : Option String)
  deriving DecidableEq, Repr

/-- The world a method of `Instance` runs in. -/
structure World where
  /-- The row the method works on. -/
  row : Instance
  /-- The tables its validations look into. -/
  catalogue : Catalogue
  /-- The names of the other rows. -/
  otherNames : List String
  /-- The answers of the cloud still to come, in order; none is a failed call. -/
  replies : List Reply
  /-- The outcomes of the SSH calls still to come. -/
  ssh : List SshReply
  /-- The log. -/
  trace : List Event
  /-- The jobs enqueued so far. -/
  queue : List Job
  deriving DecidableEq, Repr

/-- A method of `Instance`. -/
abbrev Action (α : Type) := Eff Raised World α

open Eff

/-- The record itself. -/
def self : Action Instance := do
  let w ← Eff.get
  pure w.row

/-- `postRequest`: one call, its answer and the log of both. -/
def postRequest (req : Request) : Action Reply := do
  let w ← Eff.get
  let reply := w.replies.headD .nil
  Eff.modify fun w => { w with replies := w.replies.tail, trace := w.trace ++ [.call req reply] }
  pure reply

/-- `Net::SSH.start` and the parsed output of the command. -/
def sshExec : Action SshReply := do
  let w ← Eff.get
  Eff.modify fun w => { w with ssh := w.ssh.tail }
  pure (w.ssh.headD .raised)

/-- `update_column`: written without validation. -/
def updateColumn (f : Instance → Instance) : Action Unit :=
  Eff.modify fun w => { w with row := f w.row }

/-- `update_attributes!`: validated, then written, else `RecordInvalid`.  The
assignment `f` is `none` where it puts a null into a column that may not hold
one, which the database refuses after the validations have passed; the columns
assigned this way are not among the validated ones. -/
def updateAttributes (f : Instance → Option Instance) : Action Unit := do
  let w ← Eff.get
  match f w.row with
  | some row =>
    if row.valid w.catalogue w.otherNames then
      Eff.modify fun w => { w with row := row }
    else
      Eff.raise .recordInvalid
  | none =>
    if w.row.valid w.catalogue w.otherNames then
      Eff.raise .statementInvalid
    else
      Eff.raise .recordInvalid

/-- The log entry of a stored job id. -/
def logStored (cmd : Command) (forced : Bool) (jobid : Option String) : Action Unit :=
  Eff.modify fun w => { w with trace := w.trace ++ [.stored cmd forced jobid] }

/-- The update that follows an accepted command: its job id and the state the
command leads to. -/
def storeJob (cmd : Command) (forced : Bool) (jobid : Option String) (state : String) :
    Action Unit := do
  updateAttributes fun r => some { r with jobId := jobid, state := state }
  logStored cmd forced jobid

/-- `perform_async` and `perform_in` of a worker, with the current row as snapshot. -/
def performLater (worker : Worker) (snapshot : Instance) : Action Unit :=
  Eff.modify fun w => { w with queue := w.queue ++ [⟨worker, snapshot⟩] }

/-- `res["…response"]["jobid"]` of a command's reply. -/
def jobidOf (cmd : Command) : Reply → Action (Option String)
  | .job cmd' jobid => if cmd' = cmd then pure jobid else Eff.raise .noMethodError
  | _ => Eff.raise .noMethodError

/-- `res["listvirtualmachinesresponse"]["virtualmachine"]["state"]`: a hash when one
machine is listed, an array when several are. -/
def listedState : Reply → Action (Option String)
  | .listVirtualMachines [vm] => pure vm.state
  | .listVirtualMachines (_ :: _ :: _) => Eff.raise .typeError
  | _ => Eff.raise .noMethodError

/-! ### Triples of the primitives -/

section Triples

variable {P bad : World → Prop}

/-- The world after a call: the answer is used up and the call is logged. -/
def World.afterCall (w : World) (req : Request) : World :=
  { w with replies := w.replies.tail, trace := w.trace ++ [.call req (w.replies.headD .nil)] }

theorem triple_self : Triple P self (fun row w => P w ∧ row = w.row) bad := fun _ hw => ⟨hw, rfl⟩

/-- Where it does not matter what the row is. -/
theorem read_self : Triple P self (fun _ => P) bad := fun _ hw => hw

theorem triple_postRequest {req : Request} {good : Reply → World → Prop}
    (h : ∀ w, P w → good (w.replies.headD .nil) (w.afterCall req)) :
    Triple P (postRequest req) good bad := h

theorem triple_performLater {worker : Worker} {snapshot : Instance} {good : Unit → World → Prop}
    (h : ∀ w queue, P w → good () { w with queue := queue }) :
    Triple P (performLater worker snapshot) good bad := fun w hw => h w _ hw

theorem triple_updateAttributes {f : Instance → Option Instance} {good : Unit → World → Prop}
    (hgood : ∀ w row, P w → f w.row = some row → good () { w with row := row })
    (hbad : ∀ w, P w → bad w) : Triple P (updateAttributes f) good bad := by
  apply Triple.bind Triple.get
  intro a
  rintro w ⟨hw, rfl⟩
  cases hf : f a.row with
  | none => exact Triple.ite (fun _ => Triple.raise hbad) (fun _ => Triple.raise hbad) a hw
  | some row =>
    have hwrite : Triple (fun w => P w ∧ f w.row = some row)
        (Eff.modify fun w => { w with row := row } : Action Unit) good bad :=
      Triple.modify fun w h => hgood w row h.1 h.2
    exact Triple.ite (fun _ => hwrite) (fun _ => Triple.raise fun w h => hbad w h.1) a ⟨hw, hf⟩

/-- Reading the job id out of a reply leaves the world alone. -/
theorem keeps_jobidOf {cmd : Command} {res : Reply} : Keeps P (jobidOf cmd res) := by
  unfold jobidOf
  split
  · exact Keeps.ite (fun _ => Keeps.pure) fun _ => Keeps.raise
  · exact Keeps.raise

/-- A listed state is that of the one machine listed. -/
theorem triple_listedState {res : Reply} :
    Triple P (listedState res)
      (fun s w => P w ∧ ∃ vm, res = .listVirtualMachines [vm] ∧ vm.state = s) P := by
  unfold listedState
  split
  · next vm => exact Triple.pure fun w hw => ⟨hw, vm, rfl, rfl⟩
  · exact Triple.raise fun w hw => hw
  · exact Triple.raise fun w hw => hw

end Triples

end BkPlatform.Portal
