import BkPlatform.Lib.Effect
import BkPlatform.Lib.Numbered
import BkPlatform.Lib.Run
import BkPlatform.Lib.Table
import BkPlatform.Mysql.DataPairs
import BkPlatform.Mysql.Erasing

/-!
# Scaling up and down

The monitoring runs `create_host.py` when the cluster is too small and `delete_host.py` when it is
too large.  The first one deploys machines, has the cluster restarted and creates a host for each
machine in Zabbix; the second one destroys machines and deletes their hosts.  A new machine is
called after the next number: one more than the largest in the names there are.

No answer of the cloud is tested: the status of a failed job is a number, which is compared with
a string, and what comes of a deletion is not looked at.  So the hosts may come apart from the
machines; the names stay distinct all the same.

What the cloud lists for a name is a parameter: it looks for the name anywhere in those of the
machines.

## Main definitions

* `Platform` — the machines and the hosts.
* `createSql`, `createData`, `deleteSql` — the scripts, given what is answered while they run.
* `Named` — the names of the machines are distinct.
* `InStep` — there is one host for each machine.

## Main results

* `numberOf_instanceName` — the number of a machine is found in its name.
* `named_runs` — **the names are distinct after all runs, whatever fails.**
* `inStep_iff` — **exactly when the hosts stay in step with the machines.**
-/

namespace BkPlatform.Mysql.Scaling

open Eff LinePattern

/-! ### Names -/

/-- `int(m.group(1))` for `.*stem(\\d+).*`, if the name matches. -/
def numberOf (stem displayname : String) : Option ℕ :=
  match capture (.run 0 notNewline :: literally stem ++ [.run 1 Char.isDigit, .run 0 notNewline])
      displayname.toList with
  | some [_, digits, _] => some (Nat.ofDigitChars 10 digits 0)
  | _ => none

/-- One pass of the loop over the names. -/
def pass (stem : String) (id : ℕ) (displayname : String) : ℕ :=
  match numberOf stem displayname with
  | some n => if n ≥ id then n + 1 else id
  | none => id

/-- `id`: a number above those in the names. -/
def nextId (stem : String) (displaynames : List String) : ℕ := displaynames.foldl (pass stem) 1

/-- `instance_name`. -/
def instanceName (stem : String) (id : ℕ) : String := numbered ("ductm310-" ++ stem) id

/-- The names of data nodes are those of the pairs. -/
theorem names_data : numberOf "mysql-data" = dataNumber ∧ nextId "mysql-data" = nextNumber ∧
    instanceName "mysql-data" = Mysql.instanceName := ⟨rfl, rfl, rfl⟩

/-- A stem whose first character occurs in no other place of it. -/
structure IsStem (stem : String) : Prop where
  first : ∃ c rest, stem.toList = c :: rest ∧ c ∉ rest ∧ c.isDigit = false
  line : ∀ c ∈ stem.toList, notNewline c = true

theorem isStem_sql : IsStem "mysql-sql" :=
  ⟨⟨'m', "ysql-sql".toList, rfl, by decide, rfl⟩, List.all_eq_true.mp (by decide)⟩

theorem isStem_data : IsStem "mysql-data" :=
  ⟨⟨'m', "ysql-data".toList, rfl, by decide, rfl⟩, List.all_eq_true.mp (by decide)⟩

theorem toList_instanceName (stem : String) (id : ℕ) : (instanceName stem id).toList =
    "ductm310-".toList ++ (stem.toList ++ Nat.toDigits 10 id) := by
  rw [instanceName, toList_numbered, String.toList_append, List.append_assoc]

theorem notNewline_instanceName {stem : String} (h : IsStem stem) (id : ℕ) :
    ∀ c ∈ (instanceName stem id).toList, notNewline c = true := by
  intro c hc
  rw [toList_instanceName, List.mem_append, List.mem_append] at hc
  rcases hc with hc | hc | hc
  · exact List.all_eq_true.mp (by decide : "ductm310-".toList.all notNewline = true) c hc
  · exact h.line c hc
  · exact notNewline_of_isDigit (isDigit_of_mem hc)

/-- **The number of a machine is found in its name.** -/
theorem numberOf_instanceName {stem : String} (h : IsStem stem) (id : ℕ) :
    numberOf stem (instanceName stem id) = some id := by
  let groups : List Piece := [.run 1 Char.isDigit, .run 0 notNewline]
  have hdigits : capture groups (Nat.toDigits 10 id) = some [Nat.toDigits 10 id, []] :=
    capture_run_all (fun c hc => isDigit_of_mem hc) Nat.length_toDigits_pos rfl
  have hline := notNewline_instanceName h id
  rw [toList_instanceName] at hline
  have hcapture : capture (.run 0 notNewline :: literally stem ++ groups)
      ("ductm310-".toList ++ (stem.toList ++ Nat.toDigits 10 id)) =
      some ["ductm310-".toList, Nat.toDigits 10 id, []] := by
    have hall : ("ductm310-".toList ++ (stem.toList ++ Nat.toDigits 10 id)).takeWhile notNewline =
        "ductm310-".toList ++ (stem.toList ++ Nat.toDigits 10 id) :=
      List.takeWhile_eq_self_iff.mpr hline
    rw [List.cons_append, capture, hall]
    refine longest_eq_some (Nat.zero_le _) (?_ : "ductm310-".toList.length ≤ _) ?_ ?_
    · rw [List.length_append]
      exact Nat.le_add_right _ _
    · rw [List.drop_left, List.take_left, literally, capture_ones_append, hdigits]
      rfl
    · -- the stem does not begin again behind its first character
      intro j hj _
      obtain ⟨c, rest, hstem, hrest, hdigit⟩ := h.first
      obtain ⟨k, rfl⟩ := Nat.exists_eq_add_of_lt hj
      have hdrop : ("ductm310-".toList ++ (stem.toList ++ Nat.toDigits 10 id)).drop
          ("ductm310-".toList.length + k + 1) = (rest ++ Nat.toDigits 10 id).drop k := by
        rw [Nat.add_assoc, List.drop_length_add_append, hstem]
        rfl
      rw [hdrop, literally, hstem, List.map_cons, List.cons_append, Option.map_eq_none_iff]
      cases hsuffix : (rest ++ Nat.toDigits 10 id).drop k with
      | nil => rfl
      | cons d suffix =>
        have hmem : d ∈ rest ++ Nat.toDigits 10 id :=
          List.mem_of_mem_drop (hsuffix ▸ List.mem_cons_self)
        have hne : (d == c) = false := by
          rw [beq_eq_false_iff_ne]
          rintro rfl
          rcases List.mem_append.mp hmem with hd | hd
          · exact hrest hd
          · rw [isDigit_of_mem hd] at hdigit
            cases hdigit
        show (if (d == c) = true then _ else none) = none
        rw [hne]
        rfl
  rw [numberOf, toList_instanceName, hcapture]
  exact congrArg some Nat.ofDigitChars_ten_toDigits

theorem le_pass (stem : String) (id : ℕ) (displayname : String) :
    id ≤ pass stem id displayname := by
  unfold pass
  split
  · split
    · next h => exact Nat.le_succ_of_le h
    · exact Nat.le_refl _
  · exact Nat.le_refl _

theorem lt_pass {stem displayname : String} {n : ℕ} (hn : numberOf stem displayname = some n)
    (id : ℕ) : n < pass stem id displayname := by
  rw [pass, hn]
  show n < if n ≥ id then n + 1 else id
  split
  · exact Nat.lt_succ_self n
  · next h => exact Nat.not_le.mp h

/-- The next number is above those in the names. -/
theorem lt_nextId {stem displayname : String} {displaynames : List String} {n : ℕ}
    (hmem : displayname ∈ displaynames) (hn : numberOf stem displayname = some n) :
    n < nextId stem displaynames := by
  have hmono : ∀ (names : List String) (id : ℕ), id ≤ names.foldl (pass stem) id := by
    intro names
    induction names with
    | nil => exact fun id => Nat.le_refl id
    | cons name names ih => exact fun id => Nat.le_trans (le_pass stem id name) (ih _)
  obtain ⟨before, after, rfl⟩ := List.append_of_mem hmem
  rw [nextId, List.foldl_append, List.foldl_cons]
  exact Nat.lt_of_lt_of_le (lt_pass hn _) (hmono after _)

/-! ### The platform -/

/-- A machine of the account. -/
structure Node where
  id : ℕ
  name : String
  displayname : String
  deriving DecidableEq, Repr

/-- The machines in the cloud, and the names of the hosts in Zabbix. -/
structure Platform where
  vms : Table Node Node.id
  hosts : List String

/-- How a script stops before its end: with `exit(1)`, or with an exception. -/
inductive Stop
  | exit
  | raised
  deriving DecidableEq, Repr

/-- What `deploy virtualmachine` prints: the finished job with its machine, the failed one, or
something that is not JSON.  The last two may leave a machine behind. -/
inductive DeployReply
  | deployed
  | failed (left : Bool)
  | unread (left : Bool)
  deriving DecidableEq, Repr

/-- What is answered during a run of `create_host.py`: whether the machines are listed, the
deployments, whether the cluster is restarted, and how many hosts Zabbix creates before it fails. -/
structure CreateAnswers where
  listed : Bool := true
  first : DeployReply := .deployed
  second : DeployReply := .deployed
  restarted : Bool := true
  created : ℕ := 2
  deriving DecidableEq, Repr

/-- What is answered during a run of `delete_host.py`: whether the machines are listed, which of
them are destroyed, and for how many names Zabbix deletes the hosts before it fails. -/
structure DeleteAnswers where
  listed : Bool := true
  destroyed : ℕ → Bool := fun _ => true
  deleted : ℕ

/-- A job that has ended: `jobstatus`, and `jobresult.virtualmachine`, if there is one. -/
structure Job where
  jobstatus : PyObject
  virtualmachine : Option Node
  deriving DecidableEq, Repr

/-! ### The statements -/

/-- A call that fails raises. -/
def answered (ok : Bool) : Eff Stop Platform Unit := if ok then pure () else raise .raised

/-- A machine of that name. -/
def makeNode (name : String) (id : ℕ) : Node := ⟨id, name, name⟩

/-- A machine more. -/
def Platform.withVm (p : Platform) (name : String) : Platform :=
  { p with vms := p.vms.insert (makeNode name) fun _ => rfl }

/-- The machine a deployment leaves behind. -/
def leave (name : String) (left : Bool) : Eff Stop Platform Unit :=
  if left then Eff.modify fun p => p.withVm name else pure ()

/-- `deploy virtualmachine … name=… displayname=…`. -/
def deployVirtualMachine (name : String) : DeployReply → Eff Stop Platform Job
  | .deployed => do
    let p ← Eff.get
    leave name true
    pure ⟨.int 1, some (makeNode name p.vms.nextId)⟩
  | .failed left => do
    leave name left
    pure ⟨.int 2, none⟩
  | .unread left => do
    leave name left
    raise .raised

/-- `destroy virtualmachine … expunge=true`; its answer is not looked at. -/
def destroyVirtualMachine (id : ℕ) (destroyed : Bool) : Eff Stop Platform Unit :=
  if destroyed then Eff.modify fun p => { p with vms := p.vms.keep fun vm => vm.id != id }
  else pure ()

/-- `destroy virtualmachine` for each machine. -/
def destroyAll (destroyed : ℕ → Bool) : List Node → Eff Stop Platform Unit
  | [] => pure ()
  | vm :: vms => do
    destroyVirtualMachine vm.id (destroyed vm.id)
    destroyAll destroyed vms

/-- `createHost` for each machine, as long as Zabbix answers; a name is given once. -/
def createHosts : ℕ → List Node → Eff Stop Platform Unit
  | _, [] => pure ()
  | 0, _ :: _ => raise .raised
  | created + 1, vm :: vms => do
    let p ← Eff.get
    if vm.displayname ∈ p.hosts then raise .raised
    else do
      Eff.modify fun p => { p with hosts := p.hosts ++ [vm.displayname] }
      createHosts created vms

/-- `deleteHost` for each machine, as long as Zabbix answers. -/
def deleteHosts : ℕ → List Node → Eff Stop Platform Unit
  | _, [] => pure ()
  | 0, _ :: _ => raise .raised
  | deleted + 1, vm :: vms => do
    Eff.modify fun p => { p with hosts := p.hosts.filter fun host => host ≠ vm.displayname }
    deleteHosts deleted vms

/-- The machines of `new_instances`, whose addresses are read. -/
def machines : List Job → Eff Stop Platform (List Node)
  | [] => pure []
  | job :: jobs =>
    match job.virtualmachine with
    | none => raise .raised
    | some vm => do
      let vms ← machines jobs
      pure (vm :: vms)

/-- What comes after the deployments: whether a machine boots makes no difference. -/
def register (newInstances : List Job) (a : CreateAnswers) : Eff Stop Platform Unit := do
  let vms ← machines newInstances
  answered a.restarted
  createHosts a.created vms

/-! ### The scripts -/

/-- `delete_instances`, which is taken as in `deleteInstances`. -/
def deleteNodes (argv : List String) (instances : List Node) : List Node :=
  let sorted := instances.mergeSort fun x y => decide (naturalKeys x.name ≤ naturalKeys y.name)
  let node := nodeBound argv
  if (sorted.length : ℤ) > node then sorted.drop node.toNat else sorted.drop 1

section Scripts

variable (list : List Node → String → List Node)

/-- The machines of `list virtualmachines account=bkcloud name=…`; a reply without any has no such
key. -/
def listVirtualMachines (name : String) (listed : Bool) : Eff Stop Platform (List Node) := do
  let p ← Eff.get
  match if listed then list p.vms.rows name else [] with
  | [] => raise .raised
  | vm :: vms => pure (vm :: vms)

/-- `create_host.py sql`. -/
def createSql (a : CreateAnswers) : Eff Stop Platform Unit := do
  let instances ← listVirtualMachines list "mysql-sql" a.listed
  let id := nextId "mysql-sql" (instances.map Node.displayname)
  let newInstance ← deployVirtualMachine (instanceName "mysql-sql" id) a.first
  if newInstance.jobstatus = .str "2" then raise .exit else register [newInstance] a

/-- `create_host.py data`. -/
def createData (a : CreateAnswers) : Eff Stop Platform Unit := do
  let instances ← listVirtualMachines list "mysql-data" a.listed
  let id := nextId "mysql-data" (instances.map Node.displayname)
  let first ← deployVirtualMachine (instanceName "mysql-data" id) a.first
  if first.jobstatus = .str "2" then raise .exit
  else do
    let second ← deployVirtualMachine (instanceName "mysql-data" (id + 1)) a.second
    if second.jobstatus = .str "2" then
      match first.virtualmachine with
      | some vm => do
        destroyVirtualMachine vm.id true
        raise .exit
      | none => raise .raised
    else register [first, second] a

/-- `delete_host.py sql`. -/
def deleteSql (argv : List String) (a : DeleteAnswers) : Eff Stop Platform Unit := do
  let instances ← listVirtualMachines list "mysql-sql" a.listed
  let gone := deleteNodes argv instances
  destroyAll a.destroyed gone
  deleteHosts a.deleted gone

/-- `create_host.py`, by its first argument. -/
def createHost (argv : List String) (a : CreateAnswers) : Eff Stop Platform Unit :=
  match argv[1]? with
  | some "sql" => createSql list a
  | some "data" => createData list a
  | some _ => raise .exit
  | none => raise .raised

/-- `delete_host.py`. -/
def deleteHost (argv : List String) (a : DeleteAnswers) : Eff Stop Platform Unit :=
  match argv[1]? with
  | some "sql" => deleteSql list argv a
  | some _ => raise .exit
  | none => raise .raised

/-- One run of a script. -/
inductive ScriptRun
  | createHost (argv : List String) (a : CreateAnswers)
  | deleteHost (argv : List String) (a : DeleteAnswers)

/-- A script by its run. -/
def script : ScriptRun → Eff Stop Platform Unit
  | .createHost argv a => createHost list argv a
  | .deleteHost argv a => deleteHost list argv a

/-- What a run leaves behind, wherever it stops. -/
def runScript (p : Platform) (r : ScriptRun) : Platform := (run (script list r) p).2

end Scripts

/-- The machines that are destroyed are the ones of `delete_instances`. -/
theorem deleteNodes_eq (argv : List String) (instances : List Node) :
    (deleteNodes argv instances).map (fun vm => (⟨toString vm.id, vm.name⟩ : SqlVm)) =
      deleteInstances argv (instances.map fun vm => ⟨toString vm.id, vm.name⟩) := by
  have hsort : (instances.mergeSort fun x y => decide (naturalKeys x.name ≤ naturalKeys y.name)).map
      (fun vm => (⟨toString vm.id, vm.name⟩ : SqlVm)) =
      sortedInstances (instances.map fun vm => ⟨toString vm.id, vm.name⟩) :=
    List.map_mergeSort fun _ _ _ _ => rfl
  simp only [deleteNodes, deleteInstances, ← hsort, List.length_map]
  split <;> rw [List.map_drop]

/-! ### The properties -/

/-- The names are distinct, and the cloud shows each machine under its own. -/
structure Named (p : Platform) : Prop where
  own : ∀ vm ∈ p.vms.rows, vm.displayname = vm.name
  nodup : (p.vms.rows.map Node.displayname).Nodup

/-- There is one host for each machine. -/
def InStep (p : Platform) : Prop := p.hosts.Perm (p.vms.rows.map Node.displayname)

instance (p : Platform) : Decidable (InStep p) := inferInstanceAs (Decidable (List.Perm _ _))

/-- What the cloud lists for a name: the machines it is part of the name of. -/
def Lists (list : List Node → String → List Node) : Prop :=
  ∀ rows name, (list rows name).Perm (rows.filter fun vm => decide (IsPart name vm.name))

/-! ### What a deployment leaves -/

/-- The reply leaves a machine behind. -/
def DeployReply.leaves : DeployReply → Bool
  | .deployed => true
  | .failed left => left
  | .unread left => left

/-- The platform after a deployment. -/
def Platform.after (p : Platform) (name : String) (leaves : Bool) : Platform :=
  if leaves then p.withVm name else p

@[simp] theorem hosts_after (p : Platform) (name : String) (leaves : Bool) :
    (p.after name leaves).hosts = p.hosts := by cases leaves <;> rfl

section Steps

variable {list : List Node → String → List Node} {p : Platform} {name : String}

theorem run_leave (left : Bool) : run (leave name left) p = (.ok (), p.after name left) := by
  cases left <;> rfl

theorem run_deploy_failed (left : Bool) : run (deployVirtualMachine name (.failed left)) p =
    (.ok ⟨.int 2, none⟩, p.after name left) := by
  rw [deployVirtualMachine, run_bind_ok (run_leave left)]
  rfl

theorem run_deploy_unread (left : Bool) : run (deployVirtualMachine name (.unread left)) p =
    (.error .raised, p.after name left) := by
  rw [deployVirtualMachine, run_bind_ok (run_leave left)]
  rfl

/-- The names of the machines after a deployment. -/
theorem names_after (leaves : Bool) : (p.after name leaves).vms.rows.map Node.displayname =
    p.vms.rows.map Node.displayname ++ if leaves then [name] else [] := by
  cases leaves with
  | false => exact (List.append_nil _).symm
  | true =>
    show (p.vms.rows ++ [makeNode name p.vms.nextId]).map Node.displayname = _
    rw [List.map_append]
    rfl

theorem Named.after (h : Named p) (hfresh : name ∉ p.vms.rows.map Node.displayname)
    (leaves : Bool) : Named (p.after name leaves) := by
  cases leaves with
  | false => exact h
  | true =>
    refine ⟨fun vm hvm => ?_, ?_⟩
    · have hrows : vm ∈ p.vms.rows ++ [makeNode name p.vms.nextId] := hvm
      rcases List.mem_append.mp hrows with hold | hnew
      · exact h.own vm hold
      · rw [List.mem_singleton.mp hnew]
        rfl
    · rw [names_after, if_pos rfl, List.nodup_append]
      refine ⟨h.nodup, List.nodup_singleton _, fun a ha b hb => ?_⟩
      rw [List.mem_singleton.mp hb]
      rintro rfl
      exact hfresh ha

/-- What follows the number of any machine is the number of none. -/
theorem Named.fresh (h : Named p) (hlist : Lists list) {stem : String} (hstem : IsStem stem)
    {id : ℕ} (hid : nextId stem ((list p.vms.rows stem).map Node.displayname) ≤ id) :
    instanceName stem id ∉ p.vms.rows.map Node.displayname := by
  intro hmem
  obtain ⟨vm, hvm, hname⟩ := List.mem_map.mp hmem
  have hpart : IsPart stem vm.name := by
    rw [← h.own vm hvm, hname]
    exact ⟨"ductm310-".toList, Nat.toDigits 10 id, by rw [toList_instanceName, List.append_assoc]⟩
  have hlisted : vm ∈ list p.vms.rows stem :=
    (hlist _ _).mem_iff.mpr (List.mem_filter.mpr ⟨hvm, decide_eq_true hpart⟩)
  have hlt := lt_nextId (List.mem_map_of_mem hlisted) (hname ▸ numberOf_instanceName hstem id)
  exact absurd hid (Nat.not_le.mpr hlt)

theorem run_listed {listed : Bool} {vms : List Node} (hvms : list p.vms.rows name = vms)
    (hlisted : listed = true) (hne : vms ≠ []) :
    run (listVirtualMachines list name listed) p = (.ok vms, p) := by
  obtain ⟨vm, vms, rfl⟩ := List.exists_cons_of_ne_nil hne
  simp [listVirtualMachines, run_bind, hlisted, hvms]

theorem run_unlisted {listed : Bool} (h : listed = false ∨ list p.vms.rows name = []) :
    run (listVirtualMachines list name listed) p = (.error .raised, p) := by
  rcases h with h | h
  · simp [listVirtualMachines, run_bind, h]
  · simp [listVirtualMachines, run_bind, h]

/-! ### The hosts of the new machines -/

/-- Distinct names that no host has yet are given as long as Zabbix answers. -/
theorem run_createHosts {vms : List Node} {created : ℕ}
    (hnodup : (vms.map Node.displayname).Nodup)
    (hnew : ∀ vm ∈ vms, vm.displayname ∉ p.hosts) : (run (createHosts created vms) p).2 =
      { p with hosts := p.hosts ++ (vms.take created).map Node.displayname } := by
  induction vms generalizing p created with
  | nil =>
    cases created <;> simp [createHosts]
  | cons vm vms ih =>
    cases created with
    | zero => simp [createHosts]
    | succ created =>
      rw [List.map_cons, List.nodup_cons] at hnodup
      rw [List.forall_mem_cons] at hnew
      simp only [createHosts, run_bind, run_get, if_neg hnew.1, run_modify]
      rw [ih hnodup.2]
      · simp
      · intro other hother
        rw [List.mem_append, List.mem_singleton, not_or]
        refine ⟨hnew.2 other hother, fun heq => hnodup.1 ?_⟩
        exact heq ▸ List.mem_map_of_mem hother

/-- The machines do not change behind the deployments. -/
theorem keeps_register (newInstances : List Job) (a : CreateAnswers) (vms : Table Node Node.id) :
    Keeps (fun q : Platform => q.vms = vms) (register newInstances a) := by
  have hmachines : ∀ jobs, Keeps (fun q : Platform => q.vms = vms) (machines jobs) := by
    intro jobs
    induction jobs with
    | nil => exact .pure
    | cons job jobs ih =>
      rw [machines]
      split
      · exact .raise
      · exact ih.bind fun _ => .pure
  have hhosts : ∀ vms' created, Keeps (fun q : Platform => q.vms = vms)
      (createHosts created vms') := by
    intro vms'
    induction vms' with
    | nil =>
      intro created
      cases created <;> exact .pure
    | cons vm vms' ih =>
      intro created
      cases created with
      | zero => exact .raise
      | succ created =>
        refine Keeps.bind (.of_state fun _ h => h) fun q => ?_
        refine .ite (fun _ => .raise) fun _ => ?_
        exact Keeps.bind (.of_state fun _ h => h) fun _ => ih created
  refine (hmachines newInstances).bind fun vms' => ?_
  refine Keeps.bind (.ite (fun _ => .pure) fun _ => .raise) fun _ => ?_
  exact hhosts vms' a.created

theorem vms_register (newInstances : List Job) (a : CreateAnswers) :
    (run (register newInstances a) p).2.vms = p.vms :=
  (keeps_register newInstances a p.vms).state rfl

/-- The machine of a job that has failed is missing. -/
theorem run_register_failed {newInstances : List Job} {a : CreateAnswers}
    (h : ∃ job ∈ newInstances, job.virtualmachine = none) :
    (run (register newInstances a) p).2 = p := by
  have hmachines : run (machines newInstances) p = (.error .raised, p) := by
    obtain ⟨job, hjob, hnone⟩ := h
    induction newInstances with
    | nil => exact absurd hjob List.not_mem_nil
    | cons first jobs ih =>
      rw [machines]
      cases hfirst : first.virtualmachine with
      | none => rfl
      | some vm =>
        rcases List.mem_cons.mp hjob with rfl | hjob
        · rw [hnone] at hfirst
          cases hfirst
        · exact run_bind_error (ih hjob)
  rw [register, run_bind_error hmachines]

/-- The machines that are there are registered. -/
theorem run_register {newInstances : List Job} {vms : List Node} {a : CreateAnswers}
    (hvms : newInstances.map Job.virtualmachine = vms.map some)
    (hnodup : (vms.map Node.displayname).Nodup) (hnew : ∀ vm ∈ vms, vm.displayname ∉ p.hosts) :
    (run (register newInstances a) p).2 = { p with
      hosts := p.hosts ++
        if a.restarted then (vms.take a.created).map Node.displayname else [] } := by
  have hmachines : run (machines newInstances) p = (.ok vms, p) := by
    clear hnodup hnew
    induction newInstances generalizing vms with
    | nil =>
      rw [List.map_nil, eq_comm, List.map_eq_nil_iff] at hvms
      rw [hvms]
      rfl
    | cons job jobs ih =>
      obtain ⟨vm, vms, rfl, hjob, hjobs⟩ := List.map_eq_cons_iff.mp hvms.symm
      rw [machines, ← hjob]
      exact run_bind_ok (ih hjobs.symm)
  rw [register, run_bind_ok hmachines]
  cases hrestarted : a.restarted with
  | false =>
    have hanswered : run (answered false) p = (.error .raised, p) := rfl
    rw [run_bind_error hanswered, if_neg Bool.false_ne_true, List.append_nil]
  | true =>
    have hanswered : run (answered true) p = (.ok (), p) := rfl
    rw [run_bind_ok hanswered, run_createHosts hnodup hnew, if_pos rfl]

/-! ### What a run creates -/

theorem run_deployed : run (deployVirtualMachine name .deployed) p =
    (.ok ⟨.int 1, some (makeNode name p.vms.nextId)⟩, p.after name true) := rfl

/-- The name `create_host.py` gives. -/
def newName (list : List Node → String → List Node) (p : Platform) (stem : String) (k : ℕ) :
    String :=
  instanceName stem (nextId stem ((list p.vms.rows stem).map Node.displayname) + k)

theorem newName_fresh (h : Named p) (hlist : Lists list) {stem : String} (hstem : IsStem stem)
    (k : ℕ) : newName list p stem k ∉ p.vms.rows.map Node.displayname :=
  h.fresh hlist hstem (Nat.le_add_right _ _)

theorem newName_ne (stem : String) : newName list p stem 1 ≠ newName list p stem 0 := by
  intro h
  have hid := numbered_injective _ h
  omega

/-- The machines are listed for the script. -/
def Begins (list : List Node → String → List Node) (p : Platform) (stem : String) (listed : Bool) :
    Prop :=
  listed = true ∧ list p.vms.rows stem ≠ []

/-- Nothing happens if the machines are not listed. -/
theorem run_not_begins {x : List Node → Eff Stop Platform Unit} {listed : Bool}
    (h : ¬ Begins list p name listed) :
    (run (listVirtualMachines list name listed >>= x) p).2 = p := by
  rw [Begins, not_and_or, Bool.not_eq_true, not_not] at h
  rw [run_bind_error (run_unlisted h)]

/-- **What `create_host.py sql` does**: the machine that comes up is registered, if the cluster
is restarted. -/
theorem run_createSql {a : CreateAnswers} (hbegins : Begins list p "mysql-sql" a.listed) :
    (run (createSql list a) p).2 = match a.first with
      | .deployed => (run (register [⟨.int 1, some (makeNode (newName list p "mysql-sql" 0)
          p.vms.nextId)⟩] a) (p.after (newName list p "mysql-sql" 0) true)).2
      | reply => p.after (newName list p "mysql-sql" 0) reply.leaves := by
  rw [createSql, run_bind_ok (run_listed rfl hbegins.1 hbegins.2)]
  show (run (deployVirtualMachine (newName list p "mysql-sql" 0) a.first >>= _) p).2 = _
  cases a.first with
  | deployed =>
    rw [run_bind_ok run_deployed, if_neg fun h => nomatch h]
  | failed left =>
    rw [run_bind_ok (run_deploy_failed left), if_neg fun h => nomatch h]
    exact run_register_failed ⟨_, List.mem_cons_self, rfl⟩
  | unread left =>
    rw [run_bind_error (run_deploy_unread left)]
    rfl

/-- **What `create_host.py data` does**: a failure of the first deployment does not stop the
second one, unless it cannot be read, and none is registered without the other. -/
theorem run_createData {a : CreateAnswers} (hbegins : Begins list p "mysql-data" a.listed) :
    (run (createData list a) p).2 = match a.first, a.second with
      | .unread left, _ => p.after (newName list p "mysql-data" 0) left
      | .deployed, .deployed => (run (register
          [⟨.int 1, some (makeNode (newName list p "mysql-data" 0) p.vms.nextId)⟩,
            ⟨.int 1, some (makeNode (newName list p "mysql-data" 1) (p.vms.nextId + 1))⟩] a)
          ((p.after (newName list p "mysql-data" 0) true).after
            (newName list p "mysql-data" 1) true)).2
      | first, second => (p.after (newName list p "mysql-data" 0) first.leaves).after
          (newName list p "mysql-data" 1) second.leaves := by
  rw [createData, run_bind_ok (run_listed rfl hbegins.1 hbegins.2)]
  show (run (deployVirtualMachine (newName list p "mysql-data" 0) a.first >>= _) p).2 = _
  cases a.first with
  | unread left =>
    rw [run_bind_error (run_deploy_unread left)]
  | deployed =>
    rw [run_bind_ok run_deployed, if_neg fun h => nomatch h]
    show (run (deployVirtualMachine (newName list p "mysql-data" 1) a.second >>= _) _).2 = _
    cases a.second with
    | deployed =>
      rw [run_bind_ok run_deployed, if_neg fun h => nomatch h]
      rfl
    | failed left =>
      rw [run_bind_ok (run_deploy_failed left), if_neg fun h => nomatch h]
      exact run_register_failed ⟨_, List.mem_cons_of_mem _ List.mem_cons_self, rfl⟩
    | unread left =>
      rw [run_bind_error (run_deploy_unread left)]
      rfl
  | failed left =>
    rw [run_bind_ok (run_deploy_failed left), if_neg fun h => nomatch h]
    show (run (deployVirtualMachine (newName list p "mysql-data" 1) a.second >>= _) _).2 = _
    cases a.second with
    | deployed =>
      rw [run_bind_ok run_deployed, if_neg fun h => nomatch h]
      exact run_register_failed ⟨_, List.mem_cons_self, rfl⟩
    | failed left' =>
      rw [run_bind_ok (run_deploy_failed left'), if_neg fun h => nomatch h]
      exact run_register_failed ⟨_, List.mem_cons_self, rfl⟩
    | unread left' =>
      rw [run_bind_error (run_deploy_unread left')]
      rfl

/-! ### The names -/

/-- The names are a matter of the machines only. -/
theorem Named.of_vms (h : Named p) {q : Platform} (hvms : q.vms = p.vms) : Named q := by
  refine ⟨fun vm hvm => h.own vm (hvms ▸ hvm), ?_⟩
  rw [hvms]
  exact h.nodup

theorem Named.after_after (h : Named p) (hlist : Lists list) {stem : String} (hstem : IsStem stem)
    (leaves leaves' : Bool) :
    Named ((p.after (newName list p stem 0) leaves).after (newName list p stem 1) leaves') := by
  refine (h.after (newName_fresh h hlist hstem 0) leaves).after ?_ leaves'
  rw [names_after, List.mem_append, not_or]
  refine ⟨newName_fresh h hlist hstem 1, ?_⟩
  split
  · exact fun hmem => newName_ne stem (List.mem_singleton.mp hmem)
  · exact List.not_mem_nil

theorem Named.createSql (h : Named p) (hlist : Lists list) (a : CreateAnswers) :
    Named (run (createSql list a) p).2 := by
  by_cases hbegins : Begins list p "mysql-sql" a.listed
  · have hafter := fun leaves => h.after (newName_fresh h hlist isStem_sql 0) leaves
    rw [run_createSql hbegins]
    split
    · exact (hafter true).of_vms (vms_register _ a)
    · exact hafter _
  · rw [Scaling.createSql, run_not_begins hbegins]
    exact h

theorem Named.createData (h : Named p) (hlist : Lists list) (a : CreateAnswers) :
    Named (run (createData list a) p).2 := by
  by_cases hbegins : Begins list p "mysql-data" a.listed
  · have hafter := h.after_after hlist isStem_data
    rw [run_createData hbegins]
    split
    · exact h.after (newName_fresh h hlist isStem_data 0) _
    · exact (hafter true true).of_vms (vms_register _ a)
    · exact hafter _ _
  · rw [Scaling.createData, run_not_begins hbegins]
    exact h

/-! ### What a run deletes -/

/-- What is left of the machines. -/
theorem run_destroy (destroyed : ℕ → Bool) (gone : List Node) :
    ∃ q, run (destroyAll destroyed gone) p = (.ok (), q) ∧
      q.hosts = p.hosts ∧ q.vms.rows = p.vms.rows.filter fun vm =>
        !gone.any fun other => other.id == vm.id && destroyed other.id := by
  induction gone generalizing p with
  | nil =>
    refine ⟨p, rfl, rfl, ?_⟩
    simp
  | cons vm gone ih =>
    cases hdestroyed : destroyed vm.id with
    | false =>
      obtain ⟨q, hrun, hhosts, hrows⟩ := @ih p
      refine ⟨q, ?_, hhosts, ?_⟩
      · rw [destroyAll, hdestroyed]
        exact hrun
      · rw [hrows]
        refine List.filter_congr fun other _ => ?_
        rw [List.any_cons, hdestroyed, Bool.and_false, Bool.false_or]
    | true =>
      obtain ⟨q, hrun, hhosts, hrows⟩ :=
        @ih { p with vms := p.vms.keep fun other => other.id != vm.id }
      refine ⟨q, ?_, hhosts, ?_⟩
      · rw [destroyAll, hdestroyed]
        exact hrun
      · rw [hrows]
        show (p.vms.rows.filter _).filter _ = _
        rw [List.filter_filter]
        refine List.filter_congr fun other _ => ?_
        rw [List.any_cons, hdestroyed, Bool.and_true, Bool.not_or, Bool.and_comm, bne,
          Bool.beq_comm]

/-- What is left of the hosts. -/
theorem run_deleteHosts (deleted : ℕ) (gone : List Node) :
    (run (deleteHosts deleted gone) p).2 = { p with
      hosts := p.hosts.filter fun host => host ∉ (gone.take deleted).map Node.displayname } := by
  induction gone generalizing p deleted with
  | nil => cases deleted <;> simp [deleteHosts]
  | cons vm gone ih =>
    cases deleted with
    | zero => simp [deleteHosts]
    | succ deleted =>
      simp only [deleteHosts, run_bind, run_modify]
      rw [ih, List.filter_filter]
      refine congrArg (Platform.mk p.vms) (List.filter_congr fun host _ => ?_)
      simp [Bool.and_comm]

theorem run_deleteSql {argv : List String} {a : DeleteAnswers}
    (hbegins : Begins list p "mysql-sql" a.listed) :
    (run (deleteSql list argv a) p).2.vms.rows = (p.vms.rows.filter fun vm =>
        !(deleteNodes argv (list p.vms.rows "mysql-sql")).any fun other =>
          other.id == vm.id && a.destroyed other.id) ∧
      (run (deleteSql list argv a) p).2.hosts = p.hosts.filter fun host =>
        host ∉ ((deleteNodes argv (list p.vms.rows "mysql-sql")).take a.deleted).map
          Node.displayname := by
  obtain ⟨q, hrun, hhosts, hrows⟩ := @run_destroy p a.destroyed
    (deleteNodes argv (list p.vms.rows "mysql-sql"))
  have hdelete : (run (deleteSql list argv a) p).2 =
      (run (deleteHosts a.deleted (deleteNodes argv (list p.vms.rows "mysql-sql"))) q).2 := by
    rw [deleteSql, run_bind_ok (run_listed rfl hbegins.1 hbegins.2)]
    show (run (destroyAll _ _ >>= _) p).2 = _
    rw [run_bind_ok hrun]
  rw [hdelete, run_deleteHosts, ← hhosts, ← hrows]
  exact ⟨rfl, rfl⟩

theorem Named.deleteSql (h : Named p) (argv : List String) (a : DeleteAnswers) :
    Named (run (deleteSql list argv a) p).2 := by
  by_cases hbegins : Begins list p "mysql-sql" a.listed
  · have hrows := (@run_deleteSql list p argv a hbegins).1
    refine ⟨fun vm hvm => ?_, ?_⟩
    · rw [hrows] at hvm
      exact h.own vm (List.mem_filter.mp hvm).1
    · rw [hrows]
      exact h.nodup.sublist (List.filter_sublist.map _)
  · rw [Scaling.deleteSql, run_not_begins hbegins]
    exact h

/-- One run keeps the names distinct, whatever fails. -/
theorem Named.runScript (h : Named p) (hlist : Lists list) (r : ScriptRun) :
    Named (runScript list p r) := by
  cases r with
  | createHost argv a =>
    show Named (run (createHost list argv a) p).2
    unfold createHost
    split
    · exact h.createSql hlist a
    · exact h.createData hlist a
    · exact h
    · exact h
  | deleteHost argv a =>
    show Named (run (deleteHost list argv a) p).2
    unfold deleteHost
    split
    · exact h.deleteSql argv a
    · exact h
    · exact h

/-- **The names are distinct after all runs**, whatever fails in them. -/
theorem named_runs (h : Named p) (hlist : Lists list) (runs : List ScriptRun) :
    Named (runs.foldl (runScript list) p) :=
  Run.foldl_inv (fun _ r h => h.runScript hlist r) h runs

/-! ### The hosts -/

/-- The one machine that is deployed comes up and is registered, or nothing is left of it. -/
def CreateAnswers.cleanSql (a : CreateAnswers) : Bool :=
  match a.first with
  | .deployed => a.restarted && decide (1 ≤ a.created)
  | reply => !reply.leaves

/-- Both machines come up and are registered, or nothing is left of either. -/
def CreateAnswers.cleanData (a : CreateAnswers) : Bool :=
  match a.first, a.second with
  | .unread left, _ => !left
  | .deployed, .deployed => a.restarted && decide (2 ≤ a.created)
  | first, second => !first.leaves && !second.leaves

/-- A run that keeps the hosts in step: what it deploys is registered or gone, and of what it
deletes the machines are destroyed whose hosts are deleted. -/
def Clean (list : List Node → String → List Node) (p : Platform) : ScriptRun → Prop
  | .createHost argv a =>
    (argv[1]? = some "sql" → Begins list p "mysql-sql" a.listed → a.cleanSql = true) ∧
      (argv[1]? = some "data" → Begins list p "mysql-data" a.listed → a.cleanData = true)
  | .deleteHost argv a =>
    argv[1]? = some "sql" → Begins list p "mysql-sql" a.listed →
      ∀ vm ∈ deleteNodes argv (list p.vms.rows "mysql-sql"), a.destroyed vm.id = true ↔
        vm ∈ (deleteNodes argv (list p.vms.rows "mysql-sql")).take a.deleted

/-- What comes to the hosts and to the machines has to be the same. -/
theorem inStep_append (h : InStep p) {q : Platform} {new made : List String}
    (hhosts : q.hosts = p.hosts ++ new)
    (hnames : q.vms.rows.map Node.displayname = p.vms.rows.map Node.displayname ++ made) :
    InStep q ↔ new.Perm made := by
  rw [InStep, hhosts, hnames]
  constructor
  · intro hall
    exact (List.perm_append_left_iff _).mp ((h.append_right new).symm.trans hall)
  · exact fun hnew => h.append hnew

theorem perm_taken {names : List String} (hne : names ≠ []) (restarted : Bool) (created : ℕ) :
    (if restarted then names.take created else []).Perm names ↔
      restarted = true ∧ names.length ≤ created := by
  cases restarted with
  | false => simpa [eq_comm] using hne
  | true =>
    rw [if_pos rfl]
    constructor
    · intro hperm
      have hlength := hperm.length_eq
      rw [List.length_take] at hlength
      exact ⟨rfl, by omega⟩
    · rintro ⟨-, hle⟩
      rw [List.take_of_length_le hle]

/-- Nothing is registered. -/
theorem inStep_left (h : InStep p) (leaves leaves' : Bool) (name name' : String) :
    InStep ((p.after name leaves).after name' leaves') ↔ leaves = false ∧ leaves' = false := by
  have hhosts : ((p.after name leaves).after name' leaves').hosts = p.hosts ++ [] := by simp
  have hnames : ((p.after name leaves).after name' leaves').vms.rows.map Node.displayname =
      p.vms.rows.map Node.displayname ++
        ((if leaves then [name] else []) ++ if leaves' then [name'] else []) := by
    rw [names_after, names_after, List.append_assoc]
  rw [inStep_append h hhosts hnames]
  cases leaves <;> cases leaves' <;> simp

/-- **A run of `create_host.py sql` keeps the hosts in step if and only if it is clean.** -/
theorem inStep_createSql (hnamed : Named p) (h : InStep p) (hlist : Lists list) {a : CreateAnswers}
    (hbegins : Begins list p "mysql-sql" a.listed) :
    InStep (run (createSql list a) p).2 ↔ a.cleanSql = true := by
  have hfresh := newName_fresh hnamed hlist isStem_sql 0
  have hleft : ∀ leaves, InStep (p.after (newName list p "mysql-sql" 0) leaves) ↔
      (!leaves) = true := by
    intro leaves
    have hboth := inStep_left h leaves false (newName list p "mysql-sql" 0) ""
    rw [Bool.not_eq_true']
    exact hboth.trans (and_iff_left rfl)
  rw [run_createSql hbegins, CreateAnswers.cleanSql]
  cases a.first with
  | unread left => exact hleft _
  | failed left => exact hleft _
  | deployed =>
    have hregister := @run_register (p.after (newName list p "mysql-sql" 0) true)
      [⟨.int 1, some (makeNode (newName list p "mysql-sql" 0) p.vms.nextId)⟩]
      [makeNode (newName list p "mysql-sql" 0) p.vms.nextId] a rfl (List.nodup_singleton _)
      (by
        rw [List.forall_mem_singleton, hosts_after]
        exact fun hmem => hfresh (h.mem_iff.mp hmem))
    have hiff := @inStep_append p h
      { p.after (newName list p "mysql-sql" 0) true with
        hosts := p.hosts ++ if a.restarted then
          [newName list p "mysql-sql" 0].take a.created else [] } _ _ rfl
      (names_after true)
    rw [if_pos rfl, perm_taken (List.cons_ne_nil _ _)] at hiff
    rw [hregister, hosts_after, List.map_take, Bool.and_eq_true, decide_eq_true_eq]
    exact hiff

/-- **And so is one of `create_host.py data`.** -/
theorem inStep_createData (hnamed : Named p) (h : InStep p) (hlist : Lists list)
    {a : CreateAnswers} (hbegins : Begins list p "mysql-data" a.listed) :
    InStep (run (createData list a) p).2 ↔ a.cleanData = true := by
  have hleft : ∀ leaves leaves', InStep ((p.after (newName list p "mysql-data" 0) leaves).after
      (newName list p "mysql-data" 1) leaves') ↔ (!leaves && !leaves') = true := by
    intro leaves leaves'
    rw [Bool.and_eq_true, Bool.not_eq_true', Bool.not_eq_true']
    exact inStep_left h leaves leaves' _ _
  rw [run_createData hbegins, CreateAnswers.cleanData]
  split
  · next left _ =>
    have hone := hleft left false
    rwa [Bool.not_false, Bool.and_true] at hone
  · have hfresh := fun k => newName_fresh hnamed hlist isStem_data k
    have hregister := @run_register
      ((p.after (newName list p "mysql-data" 0) true).after (newName list p "mysql-data" 1) true)
      [⟨.int 1, some (makeNode (newName list p "mysql-data" 0) p.vms.nextId)⟩,
        ⟨.int 1, some (makeNode (newName list p "mysql-data" 1) (p.vms.nextId + 1))⟩]
      [makeNode (newName list p "mysql-data" 0) p.vms.nextId,
        makeNode (newName list p "mysql-data" 1) (p.vms.nextId + 1)] a rfl
      (List.nodup_cons.mpr ⟨fun hmem => newName_ne _ (List.mem_singleton.mp hmem).symm,
        List.nodup_singleton _⟩)
      (by
        rw [List.forall_mem_cons, List.forall_mem_singleton, hosts_after, hosts_after]
        exact ⟨fun hmem => hfresh 0 (h.mem_iff.mp hmem), fun hmem => hfresh 1 (h.mem_iff.mp hmem)⟩)
    have hnames : ((p.after (newName list p "mysql-data" 0) true).after
        (newName list p "mysql-data" 1) true).vms.rows.map Node.displayname =
          p.vms.rows.map Node.displayname ++
            [newName list p "mysql-data" 0, newName list p "mysql-data" 1] := by
      rw [names_after, names_after, List.append_assoc]
      rfl
    have hiff := @inStep_append p h
      { (p.after (newName list p "mysql-data" 0) true).after (newName list p "mysql-data" 1) true
        with hosts := p.hosts ++ if a.restarted then
          [newName list p "mysql-data" 0, newName list p "mysql-data" 1].take a.created else [] }
      _ _ rfl hnames
    rw [perm_taken (List.cons_ne_nil _ _)] at hiff
    rw [hregister, hosts_after, hosts_after, List.map_take, Bool.and_eq_true, decide_eq_true_eq]
    exact hiff
  · exact hleft _ _

/-- The machines that are deleted, and each is listed once. -/
theorem deleteNodes_sublist (argv : List String) (instances : List Node) :
    ∃ l, l.Perm instances ∧ (deleteNodes argv instances).Sublist l := by
  refine ⟨instances.mergeSort fun x y => decide (naturalKeys x.name ≤ naturalKeys y.name),
    List.mergeSort_perm _ _, ?_⟩
  simp only [deleteNodes]
  split
  · exact List.drop_sublist _ _
  · exact List.drop_sublist _ _

theorem mem_of_deleteNodes (hlist : Lists list) {argv : List String} {vm : Node}
    (hvm : vm ∈ deleteNodes argv (list p.vms.rows "mysql-sql")) : vm ∈ p.vms.rows := by
  obtain ⟨l, hperm, hsub⟩ := deleteNodes_sublist argv (list p.vms.rows "mysql-sql")
  have hlisted := (hlist _ _).mem_iff.mp (hperm.mem_iff.mp (hsub.subset hvm))
  exact (List.mem_filter.mp hlisted).1

/-- **And so is one of `delete_host.py sql`.** -/
theorem inStep_deleteSql (hnamed : Named p) (h : InStep p) (hlist : Lists list)
    {argv : List String} {a : DeleteAnswers} (hbegins : Begins list p "mysql-sql" a.listed) :
    InStep (run (deleteSql list argv a) p).2 ↔
      ∀ vm ∈ deleteNodes argv (list p.vms.rows "mysql-sql"), a.destroyed vm.id = true ↔
        vm ∈ (deleteNodes argv (list p.vms.rows "mysql-sql")).take a.deleted := by
  obtain ⟨hrows, hhosts⟩ := @run_deleteSql list p argv a hbegins
  generalize hgone : deleteNodes argv (list p.vms.rows "mysql-sql") = gone at hrows hhosts ⊢
  have hmem : ∀ vm ∈ gone, vm ∈ p.vms.rows := fun vm hvm =>
    mem_of_deleteNodes hlist (hgone ▸ hvm)
  have hname : ∀ vm ∈ p.vms.rows, ∀ other ∈ p.vms.rows,
      vm.displayname = other.displayname → vm = other :=
    fun vm hvm other hother heq => List.inj_on_of_nodup_map hnamed.nodup hvm hother heq
  -- what is destroyed and what is deleted, of a machine that was there
  have hdestroyed : ∀ vm ∈ p.vms.rows,
      (gone.any fun other => other.id == vm.id && a.destroyed other.id) = true ↔
        vm ∈ gone ∧ a.destroyed vm.id = true := by
    intro vm hvm
    rw [List.any_eq_true]
    constructor
    · rintro ⟨other, hother, hboth⟩
      obtain ⟨hid, hd⟩ := Bool.and_eq_true_iff.mp hboth
      obtain rfl := p.vms.eq_of_key (hmem other hother) hvm (beq_iff_eq.mp hid)
      exact ⟨hother, hd⟩
    · rintro ⟨hvm', hd⟩
      exact ⟨vm, hvm', by rw [hd, beq_self_eq_true, Bool.and_self]⟩
  have hdeleted : ∀ vm ∈ p.vms.rows,
      vm.displayname ∈ (gone.take a.deleted).map Node.displayname ↔ vm ∈ gone.take a.deleted := by
    intro vm hvm
    constructor
    · intro hin
      obtain ⟨other, hother, heq⟩ := List.mem_map.mp hin
      rwa [← hname other (hmem other (List.mem_of_mem_take hother)) vm hvm heq]
    · exact fun hin => List.mem_map_of_mem hin
  -- so it is a matter of the machines that were there
  have hnodup : (run (deleteSql list argv a) p).2.hosts.Nodup := by
    rw [hhosts]
    exact (h.nodup_iff.mpr hnamed.nodup).filter _
  have hnodup' : ((run (deleteSql list argv a) p).2.vms.rows.map Node.displayname).Nodup := by
    rw [hrows]
    exact hnamed.nodup.sublist (List.filter_sublist.map _)
  rw [InStep, List.perm_ext_iff_of_nodup hnodup hnodup', hhosts, hrows]
  have hkept : ∀ vm ∈ p.vms.rows,
      (vm.displayname ∈ (p.vms.rows.filter fun vm => !gone.any fun other =>
          other.id == vm.id && a.destroyed other.id).map Node.displayname ↔
        ¬ (vm ∈ gone ∧ a.destroyed vm.id = true)) ∧
      (vm.displayname ∈ (p.hosts.filter fun host =>
          host ∉ (gone.take a.deleted).map Node.displayname) ↔ vm ∉ gone.take a.deleted) := by
    intro vm hvm
    constructor
    · rw [← hdestroyed vm hvm, Bool.not_eq_true]
      constructor
      · intro hin
        obtain ⟨other, hother, heq⟩ := List.mem_map.mp hin
        obtain ⟨hmem', hnot⟩ := List.mem_filter.mp hother
        rw [← hname other hmem' vm hvm heq]
        simpa using hnot
      · intro hnot
        exact List.mem_map_of_mem (List.mem_filter.mpr ⟨hvm, by rw [hnot]; rfl⟩)
    · rw [← hdeleted vm hvm, List.mem_filter, decide_eq_true_eq]
      exact and_iff_right (h.mem_iff.mpr (List.mem_map_of_mem hvm))
  constructor
  · intro hall vm hvm
    obtain ⟨hleft, hhost⟩ := hkept vm (hmem vm hvm)
    have hsame := (hhost.symm.trans (hall vm.displayname)).trans hleft
    have hiff := not_iff_not.mp hsame
    exact ⟨fun hd => hiff.mpr ⟨hvm, hd⟩, fun hin => (hiff.mp hin).2⟩
  · intro hall host
    by_cases hhost : host ∈ p.vms.rows.map Node.displayname
    · obtain ⟨vm, hvm, rfl⟩ := List.mem_map.mp hhost
      obtain ⟨hleft, hhost⟩ := hkept vm hvm
      rw [hleft, hhost, not_iff_not]
      constructor
      · exact fun hin => ⟨List.mem_of_mem_take hin, (hall vm (List.mem_of_mem_take hin)).mpr hin⟩
      · exact fun ⟨hin, hd⟩ => (hall vm hin).mp hd
    · refine iff_of_false (fun hin => hhost ?_) fun hin => hhost ?_
      · exact h.mem_iff.mp (List.mem_filter.mp hin).1
      · obtain ⟨vm, hvm, heq⟩ := List.mem_map.mp hin
        exact heq ▸ List.mem_map_of_mem (List.mem_filter.mp hvm).1

/-- **One run keeps the hosts in step if and only if it is clean.** -/
theorem inStep_runScript (hnamed : Named p) (h : InStep p) (hlist : Lists list) (r : ScriptRun) :
    InStep (runScript list p r) ↔ Clean list p r := by
  cases r with
  | createHost argv a =>
    show InStep (run (createHost list argv a) p).2 ↔ (_ → _ → _) ∧ (_ → _ → _)
    unfold createHost
    split
    · next hargv =>
      by_cases hbegins : Begins list p "mysql-sql" a.listed
      · rw [inStep_createSql hnamed h hlist hbegins]
        simp [hargv, hbegins]
      · refine iff_of_true ?_ ⟨fun _ hb => absurd hb hbegins, fun hdata => ?_⟩
        · rw [createSql, run_not_begins hbegins]
          exact h
        · rw [hargv] at hdata
          exact absurd hdata (by decide)
    · next hargv =>
      by_cases hbegins : Begins list p "mysql-data" a.listed
      · rw [inStep_createData hnamed h hlist hbegins]
        simp [hargv, hbegins]
      · refine iff_of_true ?_ ⟨fun hsql => ?_, fun _ hb => absurd hb hbegins⟩
        · rw [createData, run_not_begins hbegins]
          exact h
        · rw [hargv] at hsql
          exact absurd hsql (by decide)
    · next arg hsql hdata hargv =>
      refine iff_of_true h ⟨fun hs => ?_, fun hd => ?_⟩
      · exact absurd (Option.some.inj (hargv.symm.trans hs)) hsql
      · exact absurd (Option.some.inj (hargv.symm.trans hd)) hdata
    · next hargv =>
      rw [hargv]
      exact iff_of_true h ⟨nofun, nofun⟩
  | deleteHost argv a =>
    show InStep (run (deleteHost list argv a) p).2 ↔ (_ → _ → _)
    unfold deleteHost
    split
    · next hargv =>
      by_cases hbegins : Begins list p "mysql-sql" a.listed
      · rw [inStep_deleteSql hnamed h hlist hbegins]
        exact ⟨fun hall _ _ => hall, fun hall => hall hargv hbegins⟩
      · refine iff_of_true ?_ fun _ hb => absurd hb hbegins
        rw [deleteSql, run_not_begins hbegins]
        exact h
    · next arg hsql hargv =>
      refine iff_of_true h fun hs => ?_
      exact absurd (Option.some.inj (hargv.symm.trans hs)) hsql
    · next hargv =>
      rw [hargv]
      exact iff_of_true h fun hs => nomatch hs

/-- **The hosts stay in step with the machines in exactly the sequences of clean runs**, where the
machines have names of their own at first. -/
theorem inStep_iff (hnamed : Named p) (h : InStep p) (hlist : Lists list)
    (runs : List ScriptRun) :
    (∀ before after, runs = before ++ after → InStep (before.foldl (runScript list) p)) ↔
      Run.Along (Run.total (runScript list)) (Clean list) p runs := by
  rw [← Run.along_iff_prefixes h]
  refine @Run.along_iff _ _ _ _ (fun p => Named p ∧ InStep p) _ _ ?_ ?_ _ ⟨hnamed, h⟩
  · intro p r _ q hp hstep hq
    obtain rfl := Option.some.inj hq
    exact ⟨hp.1.runScript hlist r, hstep⟩
  · exact fun p r _ hp => inStep_runScript hp.1 hp.2 hlist r

end Steps

/-! ### A small cluster -/

/-- The list of a cloud that keeps the order of deployment. -/
def searched (rows : List Node) (name : String) : List Node :=
  rows.filter fun vm => decide (IsPart name vm.name)

theorem lists_searched : Lists searched := fun _ _ => List.Perm.refl _

/-- Two SQL nodes, of which the first one has no number, and a data node. -/
def smallPlatform : Platform where
  vms := ((Table.empty.insert (makeNode "bk-mysql-sql") fun _ => rfl).insert
    (makeNode "ductm310-mysql-sql9") fun _ => rfl).insert (makeNode "ductm310-mysql-data1")
      fun _ => rfl
  hosts := ["ductm310-mysql-data1", "bk-mysql-sql", "ductm310-mysql-sql9"]

theorem named_smallPlatform : Named smallPlatform := ⟨by decide, by decide⟩

theorem inStep_smallPlatform : InStep smallPlatform := by decide

/-- A machine that is left over, a half pair, and a deletion for which Zabbix does not answer. -/
theorem named_runs_small : Named
    ([.createHost ["create_host.py", "sql"] { first := .failed true },
      .createHost ["create_host.py", "data"] { second := .unread false },
      .deleteHost ["delete_host.py", "sql", "3", "2"] { deleted := 0 }].foldl
        (runScript searched) smallPlatform) :=
  named_runs named_smallPlatform lists_searched _

/-- The machine is left over in the cloud. -/
theorem not_inStep_small :
    ¬ InStep (runScript searched smallPlatform
      (.createHost ["create_host.py", "sql"] { first := .failed true })) := by
  rw [inStep_runScript named_smallPlatform inStep_smallPlatform lists_searched]
  exact fun h => absurd (h.1 rfl ⟨rfl, by decide⟩) (by decide)

/-- A node and a pair of nodes come up, and are registered. -/
theorem inStep_small :
    InStep ([ScriptRun.createHost ["create_host.py", "sql"] {},
      .createHost ["create_host.py", "data"] {}].foldl (runScript searched) smallPlatform) := by
  refine (inStep_iff named_smallPlatform inStep_smallPlatform lists_searched _).mpr ?_ _ []
    (List.append_nil _).symm
  rw [Run.along_total_cons, Run.along_total_cons]
  exact ⟨⟨fun _ _ => rfl, fun h => absurd h (by decide)⟩,
    ⟨fun h => absurd h (by decide), fun _ _ => rfl⟩, trivial⟩

end BkPlatform.Mysql.Scaling
