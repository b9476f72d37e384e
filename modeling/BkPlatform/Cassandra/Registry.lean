import BkPlatform.Cassandra.Scripts
import BkPlatform.Lib.Run
import Mathlib.Data.List.Perm.Basic

/-!
# The registry of the cluster

The scripts take the number of nodes from Zabbix and change the cloud first, so a run that
stops in between leaves the two apart: a deployed node that is never registered has its
name given away again.  A node that does not boot is registered all the same; one whose
copy of Cassandra fails is not.

`RemoveVM.py` keeps three nodes by comparing the name with `CAS-3`, so it goes on when
there are two or one.

## Main definitions

* `NamesExact` — the machines are named `CAS-1` to `CAS-n`, for `n` hosts.
* `Spares` — a run of `RemoveVM.py` destroys no machine when three are left.
* `Clean` — the condition on a run.

## Main results

* `kept_iff` — **the registry stays exact in exactly the sequences of clean runs.**
-/

namespace BkPlatform.Cassandra

open Eff

/-! ### The property -/

/-- The machines are named `CAS-1` to `CAS-n`, each once, for `n` hosts. -/
def NamesExact (c : Cluster) : Prop :=
  (c.vms.rows.map Node.name).Perm (firstNames "CAS-" c.hosts.length)

section Scripts

variable (list : List Node → String → List Node)

/-- `RemoveVM.py` destroys no machine when there are at most three hosts. -/
def Spares (c : Cluster) : ScriptRun → Prop
  | .addVm _ _ => True
  | .removeVm argv a =>
    c.hosts.length ≤ 3 → ∀ vm ∈ c.vms.rows, vm ∈ (runScript list c (.removeVm argv a)).vms.rows

/-- The registry is exact before, between and after the runs, and they spare what they
have to. -/
structure Kept (c : Cluster) (runs : List ScriptRun) : Prop where
  names : ∀ before after, runs = before ++ after →
    NamesExact (before.foldl (runScript list) c)
  spares : ∀ before r after, runs = before ++ r :: after →
    Spares list (before.foldl (runScript list) c) r

end Scripts

/-! ### The condition -/

/-- A deployment leads to a host, or leaves no machine: one that is deployed finds its
seed, is copied to and configured once it is booted, and is created in Zabbix; what a
failed one leaves is destroyed. -/
def DeployReply.clean (c : Cluster) (a : AddAnswers) : Bool :=
  match a.deploy with
  | .deployed _ =>
    (c.hosts.isEmpty || a.seed) && (!a.booted || a.copied && a.configured) && a.created
  | .failed left destroyed => !left || destroyed
  | .unread left => !left

/-- The run gets as far as the cloud. -/
def begins (argv : List String) (counted : Bool) : Bool :=
  argv.head? == some "CAS-1" && counted

/-- The run keeps the two systems together: a node that is removed is destroyed and
deleted, and more than three are there, or neither happens. -/
def Clean (c : Cluster) : ScriptRun → Prop
  | .addVm argv a => begins argv a.counted = true → DeployReply.clean c a = true
  | .removeVm argv a =>
    (begins argv a.counted && a.listed && a.decommissioned) = true →
      c.hosts.length ≠ 0 → c.hosts.length ≠ 3 →
        a.destroyed = a.deleted ∧ (a.destroyed = true → 3 < c.hosts.length)

instance (c : Cluster) (r : ScriptRun) : Decidable (Clean c r) := by
  cases r <;> (unfold Clean; infer_instance)

/-! ### The invariant -/

/-- The machines and the hosts are both named so, and every machine has been started. -/
structure Registered (c : Cluster) : Prop where
  names : NamesExact c
  hosts : (c.hosts.map Host.host).Perm (firstNames "CAS-" c.hosts.length)
  addresses : ∀ vm ∈ c.vms.rows, vm.ipaddress.isSome = true

theorem NamesExact.length {c : Cluster} (h : NamesExact c) :
    c.vms.rows.length = c.hosts.length := by
  have hlength := List.Perm.length_eq h
  rwa [List.length_map, length_firstNames] at hlength

theorem Registered.name {c : Cluster} (h : Registered c) {vm : Node} (hvm : vm ∈ c.vms.rows) :
    ∃ k, 1 ≤ k ∧ k ≤ c.hosts.length ∧ nodeName k = vm.name :=
  mem_firstNames.mp (h.names.mem_iff.mp (List.mem_map_of_mem hvm))

/-- What the cloud lists for a name: the machines it is part of the name of. -/
def Lists (list : List Node → String → List Node) : Prop :=
  ∀ rows name vm, vm ∈ list rows name ↔ vm ∈ rows ∧ IsPart name vm.name

theorem le_of_nodeName {n m : ℕ} (h : IsPart (nodeName n) (nodeName m)) : n ≤ m :=
  @le_of_part "CAS-" 'C' ['A', 'S', '-'] rfl (by decide) (by decide) _ _ h

section Steps

variable {list : List Node → String → List Node} {c : Cluster}

/-- No machine has the next name in its own. -/
theorem Registered.list_next (h : Registered c) (hlist : Lists list) :
    list c.vms.rows (nodeName (c.hosts.length + 1)) = [] := by
  refine List.eq_nil_iff_forall_not_mem.mpr fun vm hvm => ?_
  obtain ⟨hmem, hpart⟩ := (hlist _ _ _).mp hvm
  obtain ⟨k, -, hle, hname⟩ := h.name hmem
  rw [← hname] at hpart
  have hlarger := le_of_nodeName hpart
  omega

/-- Only the last node has the last name in its own. -/
theorem Registered.list_last (h : Registered c) (hlist : Lists list) {vm : Node}
    (hvm : vm ∈ list c.vms.rows (nodeName c.hosts.length)) :
    vm ∈ c.vms.rows ∧ vm.name = nodeName c.hosts.length := by
  obtain ⟨hmem, hpart⟩ := (hlist _ _ _).mp hvm
  obtain ⟨k, -, hle, hname⟩ := h.name hmem
  rw [← hname] at hpart
  have hlarger := le_of_nodeName hpart
  obtain rfl : k = c.hosts.length := by omega
  exact ⟨hmem, hname.symm⟩

/-! ### What the scripts begin with -/

/-- A machine has the number it is made with. -/
theorem id_made (name : String) (ipaddress : Option String) (id : ℕ) :
    Node.id ⟨id, name, ipaddress⟩ = id := rfl

/-- A machine more. -/
def Cluster.withVm (c : Cluster) (name : String) (ipaddress : Option String) : Cluster :=
  { c with vms := c.vms.insert (fun id => ⟨id, name, ipaddress⟩) (id_made name ipaddress) }

theorem run_checkArgument (argv : List String) (c : Cluster) :
    run (checkArgument argv) c =
      if argv.head? = some "CAS-1" then (.ok (), c) else (.error .exit, c) := by
  cases argv with
  | nil => rfl
  | cons arg rest =>
    by_cases harg : arg = "CAS-1"
    · simp [checkArgument, harg]
    · simp [checkArgument, harg]

theorem run_answered (ok : Bool) (c : Cluster) :
    run (answered ok) c = if ok then (.ok (), c) else (.error .raised, c) := by
  cases ok <;> rfl

/-- What both scripts begin with. -/
theorem run_begin {argv : List String} {counted : Bool} (rest : ℕ → Eff Stop Cluster Unit) :
    (run (do
      checkArgument argv
      answered counted
      let numberNode ← countHosts
      rest numberNode) c).2 =
      if begins argv counted then (run (rest c.hosts.length) c).2 else c := by
  simp only [run_bind, run_checkArgument]
  by_cases harg : argv.head? = some "CAS-1"
  · cases counted with
    | false => simp [harg, run_answered, begins]
    | true => simp [harg, run_answered, begins, countHosts, run_bind]
  · simp [harg, begins]

/-! ### A run of AddVM.py -/

theorem run_leave (name : String) (left : Bool) :
    run (leave name left) c = (.ok (), if left then c.withVm name none else c) := by
  cases left <;> rfl

/-- A deployment whose answer cannot be read. -/
theorem addNode_unread {name : String} {a : AddAnswers} {left : Bool}
    (hdeploy : a.deploy = .unread left) :
    (run (addNode list name a) c).2 = if left then c.withVm name none else c := by
  simp only [addNode, hdeploy]
  rw [run_bind_ok (run_leave name left)]
  rfl

/-- A failed deployment: what it has left is the one machine listed for the name. -/
theorem addNode_failed (h : Registered c) (hlist : Lists list) {a : AddAnswers}
    {left destroyed : Bool} (hdeploy : a.deploy = .failed left destroyed) :
    (run (addNode list (nodeName (c.hosts.length + 1)) a) c).2.hosts = c.hosts ∧
      (run (addNode list (nodeName (c.hosts.length + 1)) a) c).2.vms.rows =
        if left && !destroyed then (c.withVm (nodeName (c.hosts.length + 1)) none).vms.rows
        else c.vms.rows := by
  simp only [addNode, hdeploy]
  rw [run_bind_ok (run_leave _ left)]
  cases left with
  | false =>
    simp only [listVirtualMachines, run_bind, run_get, run_pure, Bool.false_eq_true, if_false,
      h.list_next hlist, Bool.false_and]
    exact ⟨rfl, rfl⟩
  | true =>
    let c₁ := c.withVm (nodeName (c.hosts.length + 1)) none
    let new : Node := ⟨c.vms.nextId, nodeName (c.hosts.length + 1), none⟩
    have hnew : new ∈ list c₁.vms.rows (nodeName (c.hosts.length + 1)) := by
      refine (hlist _ _ _).mpr ⟨List.mem_append_right _ List.mem_cons_self, ?_⟩
      exact List.infix_refl _
    have hone : ∀ vm ∈ list c₁.vms.rows (nodeName (c.hosts.length + 1)), vm = new := by
      intro vm hvm
      obtain ⟨hmem, hpart⟩ := (hlist _ _ _).mp hvm
      rcases List.mem_append.mp hmem with hold | hlast
      · have hnone := h.list_next hlist
        have hin := (hlist c.vms.rows _ vm).mpr ⟨hold, hpart⟩
        rw [hnone] at hin
        exact absurd hin List.not_mem_nil
      · exact List.mem_singleton.mp hlast
    have hlisted : run (listVirtualMachines list (nodeName (c.hosts.length + 1))) c₁ =
        (.ok (list c₁.vms.rows (nodeName (c.hosts.length + 1))), c₁) := rfl
    simp only [if_true]
    rw [run_bind_ok hlisted]
    cases hresult : list c₁.vms.rows (nodeName (c.hosts.length + 1)) with
    | nil =>
      rw [hresult] at hnew
      exact absurd hnew List.not_mem_nil
    | cons vm rest =>
      obtain rfl : vm = new := hone vm (by rw [hresult]; exact List.mem_cons_self)
      cases destroyed with
      | false => exact ⟨rfl, rfl⟩
      | true => exact ⟨rfl, c.vms.rows_keep_insert _ _⟩

/-- The seed of the first node is itself, that of any other the first node. -/
theorem run_findSeeds (h : Registered c) (ipaddress : String) (a : AddAnswers)
    (rows : Table Node Node.id) :
    ∃ out, run (findSeeds (nodeName (c.hosts.length + 1)) ipaddress a) { c with vms := rows } =
        (out, { c with vms := rows }) ∧
      (out.isOk = true ↔ (c.hosts.isEmpty || a.seed) = true) := by
  have hone : "CAS-1" = nodeName 1 := by decide
  unfold findSeeds
  by_cases hempty : c.hosts.length = 0
  · rw [if_pos (by rw [hempty, hone])]
    refine ⟨.ok ipaddress, rfl, ?_⟩
    simp [List.length_eq_zero_iff.mp hempty, Except.isOk, Except.toBool]
  · have hnext : nodeName (c.hosts.length + 1) ≠ "CAS-1" := by
      rw [hone]
      intro heq
      have hsame := numbered_injective _ heq
      omega
    rw [if_neg hnext]
    have hfirst : "CAS-1" ∈ c.hosts.map Host.host :=
      h.hosts.mem_iff.mpr (mem_firstNames.mpr ⟨1, Nat.le_refl 1, by omega, hone.symm⟩)
    obtain ⟨first, hmem, hname⟩ := List.mem_map.mp hfirst
    obtain ⟨host, hhost⟩ : ∃ host, c.hosts.find? (fun x => x.host == "CAS-1") = some host := by
      refine Option.isSome_iff_exists.mp (List.find?_isSome.mpr ⟨first, hmem, ?_⟩)
      exact beq_iff_eq.mpr hname
    have hsome : c.hosts.isEmpty = false := by
      cases hhosts : c.hosts with
      | nil => simp [hhosts] at hempty
      | cons x xs => rfl
    cases hseed : a.seed with
    | false =>
      refine ⟨.error .raised, by simp [run_bind, run_answered], ?_⟩
      simp [hsome, Except.isOk, Except.toBool]
    | true =>
      refine ⟨.ok host.ip, by simp [run_bind, run_answered, getHost, hhost], ?_⟩
      simp [Except.isOk, Except.toBool]

theorem run_configure (a : AddAnswers) (c : Cluster) :
    ∃ out, run (configure a) c = (out, c) ∧
      (out.isOk = true ↔ (!a.booted || a.copied && a.configured) = true) := by
  unfold configure
  cases a.booted with
  | false => exact ⟨.ok (), rfl, by simp [Except.isOk, Except.toBool]⟩
  | true =>
    cases a.copied with
    | false => exact ⟨.error .exit, rfl, by simp [Except.isOk, Except.toBool]⟩
    | true =>
      cases a.configured with
      | false => exact ⟨.error .raised, rfl, by simp [Except.isOk, Except.toBool]⟩
      | true => exact ⟨.ok (), rfl, by simp [Except.isOk, Except.toBool]⟩

/-- A deployment that has made a machine: the host is created if nothing goes wrong before. -/
theorem addNode_deployed (h : Registered c) {a : AddAnswers} {ipaddress : String}
    (hdeploy : a.deploy = .deployed ipaddress) :
    (run (addNode list (nodeName (c.hosts.length + 1)) a) c).2 =
      if DeployReply.clean c a then
        { c.withVm (nodeName (c.hosts.length + 1)) (some ipaddress) with
          hosts := c.hosts ++ [⟨nodeName (c.hosts.length + 1), ipaddress⟩] }
      else c.withVm (nodeName (c.hosts.length + 1)) (some ipaddress) := by
  let c₁ := c.withVm (nodeName (c.hosts.length + 1)) (some ipaddress)
  have hmade : run (deployVirtualMachine (nodeName (c.hosts.length + 1)) (some ipaddress)) c =
      (.ok (), c₁) := rfl
  obtain ⟨seeds, hseeds, hseed⟩ := run_findSeeds h ipaddress a c₁.vms
  obtain ⟨configured, hconfigure, hconfigured⟩ := run_configure a c₁
  change run (findSeeds _ _ a) c₁ = (seeds, c₁) at hseeds
  simp only [addNode, hdeploy, DeployReply.clean]
  rw [run_bind_ok hmade]
  cases seeds with
  | error e =>
    rw [run_bind_error hseeds, if_neg]
    intro hclean
    simp only [Bool.and_eq_true] at hclean
    exact absurd (hseed.mpr hclean.1.1) (by simp [Except.isOk, Except.toBool])
  | ok seed =>
    rw [run_bind_ok hseeds, hseed.mp rfl, Bool.true_and]
    cases configured with
    | error e =>
      rw [run_bind_error hconfigure, if_neg]
      intro hclean
      simp only [Bool.and_eq_true] at hclean
      exact absurd (hconfigured.mpr hclean.1) (by simp [Except.isOk, Except.toBool])
    | ok u =>
      rw [run_bind_ok hconfigure, hconfigured.mp rfl, Bool.true_and]
      cases a.created with
      | false => rfl
      | true => rfl

/-! ### The registry after a run of AddVM.py -/

/-- Nothing has changed. -/
theorem Registered.of_same (h : Registered c) {c' : Cluster} (hrows : c'.vms.rows = c.vms.rows)
    (hhosts : c'.hosts = c.hosts) : Registered c' := by
  obtain ⟨hnames, hhostnames, haddresses⟩ := h
  refine ⟨?_, ?_, ?_⟩
  · rw [NamesExact, hrows, hhosts]
    exact hnames
  · rw [hhosts]
    exact hhostnames
  · rw [hrows]
    exact haddresses

/-- A machine that is not registered. -/
theorem Registered.not_namesExact (h : Registered c) {c' : Cluster} {name : String}
    {ipaddress : Option String} (hrows : c'.vms.rows = (c.withVm name ipaddress).vms.rows)
    (hhosts : c'.hosts = c.hosts) : ¬ NamesExact c' := by
  intro hexact
  have hlength := hexact.length
  rw [hrows, hhosts, ← h.names.length] at hlength
  simp [Cluster.withVm, Table.insert] at hlength

/-- A machine with its host. -/
theorem Registered.withNode (h : Registered c) (ipaddress : String) :
    Registered { c.withVm (nodeName (c.hosts.length + 1)) (some ipaddress) with
      hosts := c.hosts ++ [⟨nodeName (c.hosts.length + 1), ipaddress⟩] } := by
  have hnext : firstNames "CAS-" (c.hosts ++
      [(⟨nodeName (c.hosts.length + 1), ipaddress⟩ : Host)]).length =
      firstNames "CAS-" c.hosts.length ++ [nodeName (c.hosts.length + 1)] := by
    rw [List.length_append, List.length_singleton, firstNames_succ]
    rfl
  refine ⟨?_, ?_, ?_⟩
  · show ((c.vms.rows ++ [_]).map Node.name).Perm (firstNames "CAS-" _)
    rw [hnext, List.map_append]
    exact h.names.append_right _
  · show ((c.hosts ++ [_]).map Host.host).Perm (firstNames "CAS-" _)
    rw [hnext, List.map_append]
    exact h.hosts.append_right _
  · intro vm hvm
    rcases List.mem_append.mp hvm with hold | hnew
    · exact h.addresses vm hold
    · rw [List.mem_singleton.mp hnew]
      rfl

/-- **A run of `AddVM.py` keeps the registry exact if and only if it is clean.** -/
theorem addVm_step (h : Registered c) (hlist : Lists list) (argv : List String) (a : AddAnswers) :
    (Clean c (.addVm argv a) ∧ Registered (runScript list c (.addVm argv a))) ∨
      ¬ Clean c (.addVm argv a) ∧ ¬ NamesExact (runScript list c (.addVm argv a)) := by
  have hbegin : runScript list c (.addVm argv a) =
      if begins argv a.counted then (run (addNode list (nodeName (c.hosts.length + 1)) a) c).2
      else c := run_begin fun n => addNode list (nodeName (n + 1)) a
  rw [hbegin]
  cases hbegins : begins argv a.counted with
  | false => exact Or.inl ⟨fun hb => absurd (hbegins.symm.trans hb) (by decide), h⟩
  | true =>
    have hclean : Clean c (.addVm argv a) ↔ DeployReply.clean c a = true := by
      simp [Clean, hbegins]
    rw [hclean, if_pos rfl]
    cases hdeploy : a.deploy with
    | unread left =>
      rw [addNode_unread hdeploy, DeployReply.clean, hdeploy]
      cases left with
      | false => exact Or.inl ⟨rfl, h⟩
      | true => exact Or.inr ⟨by simp, h.not_namesExact rfl rfl⟩
    | failed left destroyed =>
      obtain ⟨hhosts, hrows⟩ := addNode_failed h hlist hdeploy
      have hfailed : (!left || destroyed) = !(left && !destroyed) := by
        rw [Bool.not_and, Bool.not_not]
      simp only [DeployReply.clean, hdeploy, hfailed]
      cases hleft : left && !destroyed with
      | false =>
        rw [hleft] at hrows
        exact Or.inl ⟨rfl, h.of_same hrows hhosts⟩
      | true =>
        rw [hleft] at hrows
        exact Or.inr ⟨by decide, h.not_namesExact hrows hhosts⟩
    | deployed ipaddress =>
      rw [addNode_deployed h hdeploy]
      cases hok : DeployReply.clean c a with
      | false => exact Or.inr ⟨by decide, h.not_namesExact rfl rfl⟩
      | true => exact Or.inl ⟨rfl, h.withNode ipaddress⟩

/-! ### A run of RemoveVM.py -/

/-- A run that stops before anything is destroyed. -/
theorem removeNode_stopped (h : Registered c) (hlist : Lists list) {a : RemoveAnswers}
    (hstop : c.hosts.length = 0 ∨ c.hosts.length = 3 ∨ (a.listed && a.decommissioned) = false) :
    (run (removeNode list (nodeName c.hosts.length) a) c).2 = c := by
  unfold removeNode
  by_cases hthree : nodeName c.hosts.length = "CAS-3"
  · rw [if_pos hthree]
    rfl
  rw [if_neg hthree, run_bind_ok (show run (listVirtualMachines list _) c =
    (.ok (list c.vms.rows (nodeName c.hosts.length)), c) from rfl)]
  cases hlisted : a.listed with
  | false => rfl
  | true =>
    rw [if_pos rfl]
    cases hresult : list c.vms.rows (nodeName c.hosts.length) with
    | nil => rfl
    | cons vm rest =>
      -- a machine is listed, so the session is not opened
      have hstays : a.decommissioned = false := by
        rcases hstop with hzero | heq | hstop
        · obtain ⟨hvm, -⟩ := h.list_last hlist (by rw [hresult]; exact List.mem_cons_self)
          have hlength := h.names.length
          rw [hzero, List.length_eq_zero_iff] at hlength
          rw [hlength] at hvm
          exact absurd hvm List.not_mem_nil
        · rw [heq] at hthree
          exact absurd (by decide) hthree
        · simpa [hlisted] using hstop
      simp only [hstays, Bool.and_false]
      rfl

/-- A run that does not: the last node is destroyed and its host deleted, as far as the
two go through. -/
theorem removeNode_run (h : Registered c) (hlist : Lists list) {a : RemoveAnswers}
    (hsome : c.hosts.length ≠ 0) (hmore : c.hosts.length ≠ 3)
    (hgo : (a.listed && a.decommissioned) = true) :
    ∃ vm ∈ c.vms.rows, ∃ host ∈ c.hosts, vm.name = nodeName c.hosts.length ∧
      host.host = nodeName c.hosts.length ∧
      (run (removeNode list (nodeName c.hosts.length) a) c).2 =
        { vms := if a.destroyed then c.vms.keep (fun r => r.id != vm.id) else c.vms
          hosts := if a.deleted then c.hosts.erase host else c.hosts } := by
  obtain ⟨hlisted, hsession⟩ := Bool.and_eq_true_iff.mp hgo
  have hthree : nodeName c.hosts.length ≠ "CAS-3" :=
    fun heq => hmore (numbered_injective "CAS-" heq)
  have hlast : nodeName c.hosts.length ∈ firstNames "CAS-" c.hosts.length :=
    mem_firstNames.mpr ⟨_, Nat.one_le_iff_ne_zero.mpr hsome, Nat.le_refl _, rfl⟩
  obtain ⟨last, hlastmem, hlastname⟩ := List.mem_map.mp (h.names.mem_iff.mpr hlast)
  obtain ⟨first, hfirst, hfirstname⟩ := List.mem_map.mp (h.hosts.mem_iff.mpr hlast)
  obtain ⟨host, hhost⟩ :
      ∃ host, c.hosts.find? (fun x => x.host == nodeName c.hosts.length) = some host := by
    refine Option.isSome_iff_exists.mp (List.find?_isSome.mpr ⟨first, hfirst, ?_⟩)
    exact beq_iff_eq.mpr hfirstname
  have hhostname : host.host = nodeName c.hosts.length := by
    simpa using List.find?_some hhost
  have hin : last ∈ list c.vms.rows (nodeName c.hosts.length) := by
    refine (hlist _ _ _).mpr ⟨hlastmem, ?_⟩
    rw [hlastname]
    exact List.infix_refl _
  unfold removeNode
  rw [if_neg hthree, run_bind_ok (show run (listVirtualMachines list _) c =
    (.ok (list c.vms.rows (nodeName c.hosts.length)), c) from rfl), if_pos hlisted]
  cases hresult : list c.vms.rows (nodeName c.hosts.length) with
  | nil =>
    rw [hresult] at hin
    exact absurd hin List.not_mem_nil
  | cons vm rest =>
    obtain ⟨hvm, hname⟩ := h.list_last hlist (by rw [hresult]; exact List.mem_cons_self)
    refine ⟨vm, hvm, host, List.mem_of_find?_eq_some hhost, hname, hhostname, ?_⟩
    have haddress : vm.ipaddress.isSome = true := h.addresses vm hvm
    simp only [haddress, hsession, Bool.and_self]
    cases hdestroyed : a.destroyed <;> cases hdeleted : a.deleted <;>
      simp [run_bind, run_answered, destroyVirtualMachine, getHost, hhost]

/-- The last node has gone from both systems. -/
theorem Registered.withoutNode (h : Registered c) {vm : Node} {host : Host}
    (hvm : vm ∈ c.vms.rows) (hhost : host ∈ c.hosts) (hname : vm.name = nodeName c.hosts.length)
    (hhostname : host.host = nodeName c.hosts.length) :
    Registered { vms := c.vms.keep (fun r => r.id != vm.id), hosts := c.hosts.erase host } := by
  obtain ⟨n, hn⟩ : ∃ n, c.hosts.length = n + 1 :=
    Nat.exists_eq_add_one_of_ne_zero (List.length_pos_of_mem hhost).ne'
  have hlength : (c.hosts.erase host).length = n := by
    rw [List.length_erase_of_mem hhost, hn, Nat.add_sub_cancel]
  have hfirst : (firstNames "CAS-" c.hosts.length).Perm
      (nodeName c.hosts.length :: firstNames "CAS-" n) := by
    rw [hn, firstNames_succ]
    exact List.perm_append_singleton _ _
  refine ⟨?_, ?_, fun r hr => h.addresses r (Table.mem_keep.mp hr).1⟩
  · -- one machine less, and one name less
    have hrows := (c.vms.perm_cons_keep hvm).map Node.name
    rw [List.map_cons, hname] at hrows
    show ((c.vms.keep fun r => r.id != vm.id).rows.map Node.name).Perm (firstNames "CAS-" _)
    rw [hlength]
    exact (hrows.symm.trans (h.names.trans hfirst)).cons_inv
  · have hhosts := (List.perm_cons_erase hhost).map Host.host
    rw [List.map_cons, hhostname] at hhosts
    show ((c.hosts.erase host).map Host.host).Perm (firstNames "CAS-" _)
    rw [hlength]
    exact (hhosts.symm.trans (h.hosts.trans hfirst)).cons_inv

/-- **A run of `RemoveVM.py` keeps the registry exact and spares the last three nodes if
and only if it is clean.** -/
theorem removeVm_step (h : Registered c) (hlist : Lists list) (argv : List String)
    (a : RemoveAnswers) :
    (Clean c (.removeVm argv a) ∧ Registered (runScript list c (.removeVm argv a)) ∧
        Spares list c (.removeVm argv a)) ∨
      ¬ Clean c (.removeVm argv a) ∧ (¬ NamesExact (runScript list c (.removeVm argv a)) ∨
        ¬ Spares list c (.removeVm argv a)) := by
  have hbegin : runScript list c (.removeVm argv a) =
      if begins argv a.counted then (run (removeNode list (nodeName c.hosts.length) a) c).2
      else c := run_begin fun n => removeNode list (nodeName n) a
  have hkept : runScript list c (.removeVm argv a) = c →
      Registered (runScript list c (.removeVm argv a)) ∧ Spares list c (.removeVm argv a) := by
    intro hsame
    rw [Spares, hsame]
    exact ⟨h, fun _ vm hvm => hvm⟩
  by_cases hgoes : (begins argv a.counted && a.listed && a.decommissioned) = true ∧
      c.hosts.length ≠ 0 ∧ c.hosts.length ≠ 3
  · obtain ⟨hreach, hsome, hmore⟩ := hgoes
    have hclean : Clean c (.removeVm argv a) ↔
        a.destroyed = a.deleted ∧ (a.destroyed = true → 3 < c.hosts.length) :=
      ⟨fun hc => hc hreach hsome hmore, fun hc _ _ _ => hc⟩
    have hbegins : begins argv a.counted = true := by
      simp only [Bool.and_eq_true] at hreach
      exact hreach.1.1
    have hgo : (a.listed && a.decommissioned) = true := by
      simp only [Bool.and_eq_true] at hreach
      rw [hreach.1.2, hreach.2, Bool.and_self]
    obtain ⟨vm, hvm, host, hhost, hname, hhostname, hrun⟩ := removeNode_run h hlist hsome hmore hgo
    rw [hbegins, if_pos rfl, hrun] at hbegin
    rw [hclean]
    cases hdestroyed : a.destroyed with
    | false =>
      rw [hdestroyed] at hbegin
      cases hdeleted : a.deleted with
      | false =>
        rw [hdeleted] at hbegin
        exact Or.inl ⟨⟨rfl, fun hd => absurd hd (by decide)⟩, hkept hbegin⟩
      | true =>
        -- a host less than machines
        rw [hdeleted] at hbegin
        refine Or.inr ⟨fun hc => absurd hc.1 (by decide), Or.inl fun hexact => ?_⟩
        have hlength := hexact.length
        rw [hbegin] at hlength
        simp only [if_true, Bool.false_eq_true, if_false, List.length_erase_of_mem hhost,
          h.names.length] at hlength
        omega
    | true =>
      rw [hdestroyed] at hbegin
      have hless := (c.vms.perm_cons_keep hvm).length_eq
      rw [List.length_cons, h.names.length] at hless
      cases hdeleted : a.deleted with
      | false =>
        -- a machine less than hosts
        rw [hdeleted] at hbegin
        refine Or.inr ⟨fun hc => absurd hc.1 (by decide), Or.inl fun hexact => ?_⟩
        have hlength := hexact.length
        rw [hbegin] at hlength
        simp only [if_true, Bool.false_eq_true, if_false] at hlength
        omega
      | true =>
        rw [hdeleted] at hbegin
        by_cases hfew : c.hosts.length ≤ 3
        · refine Or.inr ⟨fun hc => absurd (hc.2 rfl) (Nat.not_lt.mpr hfew), Or.inr ?_⟩
          intro hspares
          have hgone := hspares hfew vm hvm
          rw [hbegin] at hgone
          simp at hgone
        · refine Or.inl ⟨⟨rfl, fun _ => Nat.not_le.mp hfew⟩, ?_, fun hle => absurd hle hfew⟩
          rw [hbegin]
          exact h.withoutNode hvm hhost hname hhostname
  · have hclean : Clean c (.removeVm argv a) :=
      fun hreach hsome hmore => absurd ⟨hreach, hsome, hmore⟩ hgoes
    refine Or.inl ⟨hclean, hkept ?_⟩
    rw [hbegin]
    cases hbegins : begins argv a.counted with
    | false => rfl
    | true =>
      rw [if_pos rfl]
      refine removeNode_stopped h hlist ?_
      rw [hbegins, Bool.true_and] at hgoes
      by_contra hnot
      simp only [not_or, Bool.not_eq_false] at hnot
      exact hgoes ⟨hnot.2.2, hnot.1, hnot.2.1⟩

/-! ### Sequences of runs -/

/-- What is asked of one run. -/
def Good (list : List Node → String → List Node) (c : Cluster) (r : ScriptRun) : Prop :=
  NamesExact (runScript list c r) ∧ Spares list c r

/-- One run, from a registered cluster. -/
theorem good_iff (h : Registered c) (hlist : Lists list) (r : ScriptRun) :
    (Good list c r ↔ Clean c r) ∧ (Clean c r → Registered (runScript list c r)) := by
  cases r with
  | addVm argv a =>
    rcases addVm_step h hlist argv a with ⟨hclean, hafter⟩ | ⟨hdirty, hnot⟩
    · exact ⟨iff_of_true ⟨hafter.names, trivial⟩ hclean, fun _ => hafter⟩
    · exact ⟨iff_of_false (fun hgood => hnot hgood.1) hdirty, fun hclean => absurd hclean hdirty⟩
  | removeVm argv a =>
    rcases removeVm_step h hlist argv a with ⟨hclean, hafter, hspares⟩ | ⟨hdirty, hnot⟩
    · exact ⟨iff_of_true ⟨hafter.names, hspares⟩ hclean, fun _ => hafter⟩
    · refine ⟨iff_of_false (fun hgood => ?_) hdirty, fun hclean => absurd hclean hdirty⟩
      rcases hnot with hnames | hspares
      · exact hnames hgood.1
      · exact hspares hgood.2

/-- **The registry stays exact, and the last three nodes are spared, in exactly the
sequences of clean runs.** -/
theorem kept_iff (hlist : Lists list) (h : Registered c) (runs : List ScriptRun) :
    Kept list c runs ↔ Run.Along (Run.total (runScript list)) Clean c runs := by
  have hagree : Run.Along (Run.total (runScript list)) (Good list) c runs ↔
      Run.Along (Run.total (runScript list)) Clean c runs := by
    refine @Run.along_iff _ _ _ _ Registered _ _ ?_ ?_ _ h
    · intro c r _ c' hc hgood hstep
      obtain rfl := Option.some.inj hstep
      obtain ⟨hiff, hafter⟩ := good_iff hc hlist r
      exact hafter (hiff.mp hgood)
    · exact fun c r _ hc => (good_iff hc hlist r).1
  rw [← hagree, Run.along_total_iff]
  constructor
  · intro hkept before r after hruns
    refine ⟨?_, hkept.spares before r after hruns⟩
    have hnames := hkept.names (before ++ [r]) after (by rw [hruns, List.append_assoc]; rfl)
    rwa [List.foldl_append] at hnames
  · intro hgood
    refine ⟨fun before after hruns => ?_, fun before r after hruns => (hgood _ r after hruns).2⟩
    rcases List.eq_nil_or_concat before with rfl | ⟨front, r, rfl⟩
    · exact h.names
    · rw [List.concat_eq_append, List.foldl_append]
      refine (hgood front r after ?_).1
      rw [hruns, List.concat_eq_append, List.append_assoc]
      rfl

end Steps

/-! ### An empty cluster -/

/-- The list of a cloud that keeps the order of deployment. -/
def searched (rows : List Node) (name : String) : List Node :=
  rows.filter fun vm => decide (IsPart name vm.name)

theorem lists_searched : Lists searched := by
  intro rows name vm
  rw [searched, List.mem_filter, decide_eq_true_eq]

/-- No node yet. -/
def emptyCluster : Cluster := ⟨.empty, []⟩

theorem registered_emptyCluster : Registered emptyCluster :=
  ⟨List.Perm.nil, List.Perm.nil, fun _ hvm => absurd hvm List.not_mem_nil⟩

/-- A node is added; `copied` tells whether Cassandra could be copied to it. -/
def addedNode (ipaddress : String) (copied : Bool) : ScriptRun :=
  .addVm ["CAS-1"] { deploy := .deployed ipaddress, copied := copied }

/-- A node is removed. -/
def removedNode : ScriptRun := .removeVm ["CAS-1"] {}

/-- **A copy that fails has the name given away twice, and of two nodes one is
destroyed.** -/
theorem registry_apart :
    ¬ (([addedNode "10.0.0.1" true, addedNode "10.0.0.2" false, addedNode "10.0.0.3" true].foldl
        (runScript searched) emptyCluster).vms.rows.map Node.name).Nodup ∧
    ¬ Kept searched emptyCluster
        [addedNode "10.0.0.1" true, addedNode "10.0.0.2" false, addedNode "10.0.0.3" true] ∧
    ¬ Kept searched emptyCluster
        [addedNode "10.0.0.1" true, addedNode "10.0.0.2" true, removedNode] := by
  refine ⟨by decide, fun h => ?_, fun h => ?_⟩
  · have hlength := (h.names [addedNode "10.0.0.1" true, addedNode "10.0.0.2" false]
      [addedNode "10.0.0.3" true] rfl).length
    exact absurd hlength (by decide)
  · have hspares := h.spares [addedNode "10.0.0.1" true, addedNode "10.0.0.2" true] removedNode []
      rfl (by decide) ⟨2, "CAS-2", some "10.0.0.2"⟩ (by decide)
    exact absurd hspares (by decide)

/-- A node that does not boot is registered, and what a failed deployment leaves is
destroyed: the registry stays exact. -/
theorem kept_of_clean :
    Kept searched emptyCluster
      [addedNode "10.0.0.1" true,
       .addVm ["CAS-1"] { deploy := .deployed "10.0.0.2", booted := false },
       .addVm ["CAS-1"] { deploy := .failed true true }] :=
  (kept_iff lists_searched registered_emptyCluster _).mpr (by decide)

end BkPlatform.Cassandra
