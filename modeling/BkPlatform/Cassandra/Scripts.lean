import BkPlatform.Lib.Effect
import BkPlatform.Lib.Numbered
import BkPlatform.Lib.Table

/-!
# The scripts of the Cassandra cluster

`AddVM.py` and `RemoveVM.py` are run by the monitoring when the cluster is too small or
too large.  Both count the hosts of the Zabbix group: a new node is called after the next
number, and the last node is the one with the count.  The machine is deployed or destroyed
first, and the host is created or deleted at the very end.

What the cloud lists for a name is a parameter: it looks for the name anywhere in those
of the machines.

## Main definitions

* `Cluster` — the machines and the hosts.
* `addVm`, `removeVm` — the scripts, given what is answered while they run.
* `ScriptRun`, `runScript` — one run, whatever its end.
-/

namespace BkPlatform.Cassandra

open Eff

/-! ### The cluster -/

/-- A virtual machine; one that was never started has no address. -/
structure Node where
  id : ℕ
  name : String
  ipaddress : Option String
  deriving DecidableEq, Repr

/-- A host of the Zabbix group of the cluster. -/
structure Host where
  host : String
  ip : String
  deriving DecidableEq, Repr

/-- The machines of the cluster in the cloud, and its hosts in Zabbix. -/
structure Cluster where
  vms : Table Node Node.id
  hosts : List Host

/-- The name of a node. -/
def nodeName (n : ℕ) : String := numbered "CAS-" n

/-- How a script stops before its end: with `exit(1)`, or with an exception. -/
inductive Stop
  | exit
  | raised
  deriving DecidableEq, Repr

/-! ### The answers -/

/-- What `deploy virtualmachine` prints: the finished job with the address of the machine,
the failed one, or something that is not JSON.  The last two may leave a machine behind;
a failed one is destroyed, unless that fails as well. -/
inductive DeployReply
  | deployed (ipaddress : String)
  | failed (left destroyed : Bool)
  | unread (left : Bool)
  deriving DecidableEq, Repr

/-- What is answered during a run of `AddVM.py`: whether Zabbix counts the hosts, the
deployment, whether Zabbix knows the address of the seed, whether the machine is booted,
the return code of the copy, the SSH session, and whether Zabbix creates the host. -/
structure AddAnswers where
  counted : Bool := true
  deploy : DeployReply
  seed : Bool := true
  booted : Bool := true
  copied : Bool := true
  configured : Bool := true
  created : Bool := true
  deriving DecidableEq, Repr

/-- What is answered during a run of `RemoveVM.py`: whether Zabbix counts the hosts and
the cloud lists the machine, the SSH session, whether the machine is destroyed, and whether
Zabbix deletes the host. -/
structure RemoveAnswers where
  counted : Bool := true
  listed : Bool := true
  decommissioned : Bool := true
  destroyed : Bool := true
  deleted : Bool := true
  deriving DecidableEq, Repr

/-! ### The statements -/

/-- A call that fails raises. -/
def answered (ok : Bool) : Eff Stop Cluster Unit := if ok then pure () else raise .raised

/-- `sys.argv` without the script's own name. -/
def checkArgument : List String → Eff Stop Cluster Unit
  | [] => raise .exit
  | arg :: _ => if arg = "CAS-1" then pure () else raise .exit

/-- `zapi.host.get(countOutput = 1)`. -/
def countHosts : Eff Stop Cluster ℕ := do
  let c ← Eff.get
  pure c.hosts.length

/-- `zapi.host.get(filter = {"name": …})[0]`. -/
def getHost (name : String) : Eff Stop Cluster Host := do
  let c ← Eff.get
  match c.hosts.find? fun h => h.host == name with
  | some host => pure host
  | none => raise .raised

/-- `deploy virtualmachine`. -/
def deployVirtualMachine (name : String) (ipaddress : Option String) : Eff Stop Cluster Unit :=
  Eff.modify fun c => { c with vms := c.vms.insert (fun id => ⟨id, name, ipaddress⟩) fun _ => rfl }

/-- `destroy virtualmachine … expunge=true`; its answer is not looked at. -/
def destroyVirtualMachine (id : ℕ) (destroyed : Bool) : Eff Stop Cluster Unit :=
  if destroyed then Eff.modify fun c => { c with vms := c.vms.keep fun vm => vm.id != id }
  else pure ()

/-! ### The scripts -/

section Scripts

variable (list : List Node → String → List Node)

/-- `list virtualmachines name=…`. -/
def listVirtualMachines (name : String) : Eff Stop Cluster (List Node) := do
  let c ← Eff.get
  pure (list c.vms.rows name)

/-- The machine a deployment leaves behind. -/
def leave (name : String) (left : Bool) : Eff Stop Cluster Unit :=
  if left then deployVirtualMachine name none else pure ()

/-- The seed of a new node: itself, or the first node. -/
def findSeeds (name ipaddress : String) (a : AddAnswers) : Eff Stop Cluster String :=
  if name = "CAS-1" then pure ipaddress
  else do
    answered a.seed
    let host ← getHost "CAS-1"
    pure host.ip

/-- A booted machine gets a copy of Cassandra, and is configured over SSH. -/
def configure (a : AddAnswers) : Eff Stop Cluster Unit :=
  if a.booted then
    if a.copied then answered a.configured else raise .exit
  else pure ()

/-- `AddVM.py` from the deployment on. -/
def addNode (name : String) (a : AddAnswers) : Eff Stop Cluster Unit :=
  match a.deploy with
  | .unread left => do
    leave name left
    raise .raised
  | .failed left destroyed => do
    leave name left
    let result ← listVirtualMachines list name
    match result with
    | [] => raise .raised
    | vm :: _ =>
      destroyVirtualMachine vm.id destroyed
      raise .exit
  | .deployed ipaddress => do
    deployVirtualMachine name (some ipaddress)
    let _ ← findSeeds name ipaddress a
    configure a
    answered a.created
    Eff.modify fun c => { c with hosts := c.hosts ++ [⟨name, ipaddress⟩] }

/-- `AddVM.py`. -/
def addVm (argv : List String) (a : AddAnswers) : Eff Stop Cluster Unit := do
  checkArgument argv
  answered a.counted
  let numberNode ← countHosts
  addNode list (nodeName (numberNode + 1)) a

/-- `RemoveVM.py` from the name on; a list without machines is not JSON. -/
def removeNode (name : String) (a : RemoveAnswers) : Eff Stop Cluster Unit := do
  if name = "CAS-3" then
    raise .exit
  else
    let result ← listVirtualMachines list name
    match if a.listed then result else [] with
    | [] => raise .exit
    | vm :: _ =>
      answered (vm.ipaddress.isSome && a.decommissioned)
      destroyVirtualMachine vm.id a.destroyed
      let host ← getHost name
      answered a.deleted
      Eff.modify fun c => { c with hosts := c.hosts.erase host }

/-- `RemoveVM.py`. -/
def removeVm (argv : List String) (a : RemoveAnswers) : Eff Stop Cluster Unit := do
  checkArgument argv
  answered a.counted
  let numberNode ← countHosts
  removeNode list (nodeName numberNode) a

/-- One run of a script. -/
inductive ScriptRun
  | addVm (argv : List String) (a : AddAnswers)
  | removeVm (argv : List String) (a : RemoveAnswers)
  deriving DecidableEq, Repr

/-- What a run leaves behind, wherever it stops. -/
def runScript (c : Cluster) : ScriptRun → Cluster
  | .addVm argv a => (run (addVm list argv a) c).2
  | .removeVm argv a => (run (removeVm list argv a) c).2

end Scripts

end BkPlatform.Cassandra
