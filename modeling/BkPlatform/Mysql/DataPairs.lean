import BkPlatform.Mysql.Monitoring
import BkPlatform.Mysql.ScaleDown

/-!
# Data nodes in pairs

`create_host.py data` deploys two machines one after the other.  If the first deployment fails it
exits, and if the second one fails it destroys the first machine and exits.  A failed job has the
status 2, which is a number; the script compares it with a string, takes the deployment for a
success, and raises where it looks for the address of the machine that is not there.  So what has
come up stays.

## Main definitions

* `nextNumber`, `instanceName` — the names of the machines.
* `Deployments` — what comes of the two deployments.
* `createData`, `added` — the script, and what it leaves behind.

## Main results

* `added_createData` — what is left if a failure is not recognised.
* `paired_of_string` — with a string for the status there is no machine without its pair.
* `paired_iff` — **exactly when the machines come in pairs.**
-/

namespace BkPlatform.Mysql

open LinePattern

/-! ### Names -/

/-- `.*mysql-data(\d+).*`. -/
def dataPattern : List Piece :=
  .run 0 notNewline :: literally "mysql-data" ++ [.run 1 Char.isDigit, .run 0 notNewline]

/-- `int(m.group(1))`, if the name matches. -/
def dataNumber (displayname : String) : Option ℕ :=
  match capture dataPattern displayname.toList with
  | some [_, digits, _] => some (Nat.ofDigitChars 10 digits 0)
  | _ => none

/-- `id`: a number above those in the names. -/
def nextNumber (displaynames : List String) : ℕ :=
  displaynames.foldl (fun id displayname =>
    match dataNumber displayname with
    | some n => if n ≥ id then n + 1 else id
    | none => id) 1

/-- `instance_name`. -/
def instanceName (id : ℕ) : String := "ductm310-mysql-data" ++ toString id

/-! ### Deployments -/

/-- A machine of the cloud. -/
structure DataVm where
  id : String
  displayname : String
  ipaddress : String
  deriving DecidableEq, Repr

/-- What the cloud gives to a machine that comes up. -/
structure Started where
  id : String
  ipaddress : String
  deriving DecidableEq, Repr

def Started.vm (s : Started) (displayname : String) : DataVm := ⟨s.id, displayname, s.ipaddress⟩

/-- What comes of two deployments, where nothing stands for a failure: a machine has an id that
no other one has. -/
structure Deployments (cloud : List DataVm) where
  first : Option Started
  second : Option Started
  new : ∀ s ∈ first.toList ++ second.toList, s.id ∉ cloud.map DataVm.id
  nodup : ((first.toList ++ second.toList).map Started.id).Nodup

/-- A reply to a deployment: `jobstatus`, and `jobresult.virtualmachine`, if there is one. -/
structure JobReply where
  jobstatus : PyObject
  virtualmachine : Option DataVm

/-- The reply, with the given status for a failure. -/
def jobReply (failure : PyObject) (displayname : String) : Option Started → JobReply
  | some s => ⟨.int 1, some (s.vm displayname)⟩
  | none => ⟨failure, none⟩

/-- The cloud after a deployment. -/
def deploy (cloud : List DataVm) (displayname : String) (outcome : Option Started) :
    List DataVm :=
  cloud ++ (outcome.map fun s => s.vm displayname).toList

/-- The cloud after `destroy virtualmachine id=… expunge=true`. -/
def destroy (cloud : List DataVm) (id : String) : List DataVm := cloud.filter fun vm => vm.id ≠ id

/-! ### The script -/

/-- How the script ends. -/
inductive Ending
  | exit (status : ℕ)
  | keyError
  | otherError
  deriving DecidableEq, Repr

/-- `create_host.py data`: the cloud it leaves, and how it ends.  `listing` is what the listed
machines are called, if the reply has any; `later` is how the steps end that come after the
machines have booted, which change nothing in the cloud. -/
def createData (failure : PyObject) (listing : Option (List String)) (cloud : List DataVm)
    (d : Deployments cloud) (later : Ending) : List DataVm × Ending :=
  match listing with
  | none => (cloud, .keyError)
  | some displaynames =>
    let id := nextNumber displaynames
    let first := jobReply failure (instanceName id) d.first
    let cloud := deploy cloud (instanceName id) d.first
    if first.jobstatus = .str "2" then (cloud, .exit 1)
    else
      let second := jobReply failure (instanceName (id + 1)) d.second
      let cloud := deploy cloud (instanceName (id + 1)) d.second
      if second.jobstatus = .str "2" then
        match first.virtualmachine with
        | some vm => (destroy cloud vm.id, .exit 1)
        | none => (cloud, .keyError)
      else
        -- the address of each new machine is read
        match first.virtualmachine, second.virtualmachine with
        | some _, some _ => (cloud, later)
        | _, _ => (cloud, .keyError)

/-- How many machines are there that were not there before. -/
def added (before after : List DataVm) : ℕ :=
  (after.filter fun vm => vm.id ∉ before.map DataVm.id).length

/-- **Machines are added in pairs or not at all.** -/
def Paired (failure : PyObject) (listing : Option (List String)) (cloud : List DataVm)
    (d : Deployments cloud) (later : Ending) : Prop :=
  added cloud (createData failure listing cloud d later).1 = 0 ∨
    added cloud (createData failure listing cloud d later).1 = 2

/-! ### What is left behind -/

variable {cloud : List DataVm}

/-- New machines are counted, and those that were there are not. -/
theorem added_append {vms : List DataVm} (h : ∀ vm ∈ vms, vm.id ∉ cloud.map DataVm.id) :
    added cloud (cloud ++ vms) = vms.length := by
  have hold : cloud.filter (fun vm => vm.id ∉ cloud.map DataVm.id) = [] := by
    rw [List.filter_eq_nil_iff]
    intro vm hvm hnot
    exact of_decide_eq_true hnot (List.mem_map_of_mem hvm)
  have hnew : vms.filter (fun vm => vm.id ∉ cloud.map DataVm.id) = vms := by
    rw [List.filter_eq_self]
    exact fun vm hvm => decide_eq_true (h vm hvm)
  rw [added, List.filter_append, hold, hnew, List.nil_append]

theorem added_self (cloud : List DataVm) : added cloud cloud = 0 := by
  have h := @added_append cloud [] fun vm hvm => absurd hvm List.not_mem_nil
  rwa [List.append_nil] at h

/-- Both machines, if they have come up. -/
theorem deploy_deploy (cloud : List DataVm) (name name' : String) (o o' : Option Started) :
    deploy (deploy cloud name o) name' o' =
      cloud ++ ((o.map fun s => s.vm name).toList ++ (o'.map fun s => s.vm name').toList) :=
  List.append_assoc _ _ _

theorem added_deploy_deploy (d : Deployments cloud) (name name' : String) :
    added cloud (deploy (deploy cloud name d.first) name' d.second) =
      d.first.toList.length + d.second.toList.length := by
  rw [deploy_deploy, added_append, List.length_append]
  · cases d.first <;> cases d.second <;> rfl
  · intro vm hvm
    have hnew := d.new
    rw [List.mem_append, Option.mem_toList, Option.mem_toList, Option.map_eq_some_iff,
      Option.map_eq_some_iff] at hvm
    rcases hvm with ⟨s, hs, rfl⟩ | ⟨s, hs, rfl⟩
    · exact hnew s (List.mem_append_left _ (Option.mem_toList.mpr hs))
    · exact hnew s (List.mem_append_right _ (Option.mem_toList.mpr hs))

/-- **What is left if no failure is recognised**: the machines that have come up. -/
theorem added_createData {failure : PyObject} (hfailure : failure ≠ .str "2")
    (displaynames : List String) (d : Deployments cloud) (later : Ending) :
    added cloud (createData failure (some displaynames) cloud d later).1 =
      d.first.toList.length + d.second.toList.length := by
  have hstatus : ∀ name o, (jobReply failure name o).jobstatus ≠ .str "2" := by
    intro name o
    cases o with
    | none => exact hfailure
    | some s => exact fun h => nomatch h
  rw [← added_deploy_deploy d (instanceName (nextNumber displaynames))
    (instanceName (nextNumber displaynames + 1)), createData]
  simp only [if_neg (hstatus _ _)]
  split <;> rfl

/-- **Were the status of a failure a string, there would be no machine without its pair.** -/
theorem paired_of_string (listing : Option (List String)) (d : Deployments cloud)
    (later : Ending) : Paired (.str "2") listing cloud d later := by
  cases listing with
  | none => exact Or.inl (added_self cloud)
  | some displaynames =>
    obtain ⟨first, second, new, nodup⟩ := d
    rw [Paired, createData]
    cases first with
    | none =>
      -- the script exits, and nothing has come up
      left
      show added cloud (cloud ++ []) = 0
      rw [List.append_nil, added_self]
    | some s =>
      cases second with
      | some s' =>
        right
        exact added_deploy_deploy ⟨some s, some s', new, nodup⟩ _ _
      | none =>
        -- the first machine is destroyed, and no other one has its id
        left
        show added cloud ((cloud ++ [s.vm _] ++ []).filter fun vm => vm.id ≠ s.id) = 0
        have hid : s.id ∉ cloud.map DataVm.id := new s List.mem_cons_self
        have hkept : cloud.filter (fun vm => vm.id ≠ s.id) = cloud := by
          rw [List.filter_eq_self]
          intro vm hvm
          refine decide_eq_true fun heq => ?_
          exact hid (heq ▸ List.mem_map_of_mem hvm)
        rw [List.append_nil, List.filter_append, hkept]
        simp [Started.vm, added_self]

/-- **Exactly when the machines come in pairs**: when there are no names in the listing, or both
deployments succeed or both fail. -/
theorem paired_iff (listing : Option (List String)) (cloud : List DataVm) (d : Deployments cloud)
    (later : Ending) : Paired (.int 2) listing cloud d later ↔
      listing = none ∨ d.first.isSome = d.second.isSome := by
  cases listing with
  | none => exact iff_of_true (Or.inl (added_self cloud)) (Or.inl rfl)
  | some displaynames =>
    rw [Paired, added_createData (by decide)]
    cases d.first <;> cases d.second <;> simp

/-- One data node, and a deployment that succeeds before one that fails. -/
def oneNode : List DataVm := [⟨"vm-1", "ductm310-mysql-data1", "192.168.50.61"⟩]

def halfDone : Deployments oneNode where
  first := some ⟨"vm-2", "192.168.50.62"⟩
  second := none
  new := by decide
  nodup := by decide

theorem not_paired_halfDone :
    ¬ Paired (.int 2) (some ["ductm310-mysql-data1"]) oneNode halfDone (.exit 0) := by
  rw [paired_iff]
  decide

end BkPlatform.Mysql
