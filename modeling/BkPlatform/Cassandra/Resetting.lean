import BkPlatform.Cassandra.Registry

/-!
# Resetting a node

`ResetVM.py` puts the machine it finds for a name back to its template and configures it
again.  It takes the first machine the cloud lists, and the cloud lists every machine the
name is part of: asked for `CAS-1` it may reset `CAS-10`.  The name also decides the seed,
so that this machine would be configured with itself for a seed, and form a ring alone.

## Main definitions

* `Site` — the cluster, and the seed that is configured in each machine.
* `Site.addVm`, `Site.removeVm`, `Site.resetVm` — the scripts, over the disks as well.
* `OneSeed` — every machine has the first node for a seed.

## Main results

* `resets_own_iff` — **a reset spares the other machines whatever the cloud lists first, as
  long as there is no node with ten times the number.**
* `sound_runs_iff` — **the ring stays one in exactly the runs that have no machine configured
  under the first one's name that has not its address.**
* `ring_of_few` — so it does with at most nine nodes.
-/

namespace BkPlatform.Cassandra

open Eff

/-! ### The disks -/

/-- The cluster, and the seed in the configuration of each machine: none before it is
configured, nor when it is put back to its template. -/
structure Site where
  cluster : Cluster
  seeds : ℕ → Option String

/-- The seed in the configuration of one machine. -/
def Site.write (s : Site) (id : ℕ) (seed : Option String) : Site :=
  { s with seeds := Function.update s.seeds id seed }

@[simp] theorem cluster_write (s : Site) (id : ℕ) (seed : Option String) :
    (s.write id seed).cluster = s.cluster := rfl

theorem seeds_write_self (s : Site) (id : ℕ) (seed : Option String) :
    (s.write id seed).seeds id = seed := Function.update_self ..

theorem seeds_write_of_ne (s : Site) {id id' : ℕ} (seed : Option String) (hne : id' ≠ id) :
    (s.write id seed).seeds id' = s.seeds id' := Function.update_of_ne hne ..

/-- A statement about the cluster alone. -/
def onCluster {α : Type} (x : Eff Stop Cluster α) : Eff Stop Site α :=
  within Site.cluster (fun c s => { s with cluster := c }) x

/-- `configCassandra.sh`, run with the seed on a machine that is booted. -/
def configCassandra (booted : Bool) (id : ℕ) (seeds : String) : Eff Stop Site Unit :=
  if booted then Eff.modify fun s => s.write id (some seeds) else pure ()

/-- What `restore virtualmachine` prints: the finished job, the failed one, or something
that is not JSON.  With the last two the machine may be back to its template as well. -/
inductive RestoreReply
  | restored
  | failed (wiped : Bool)
  | unread (wiped : Bool)
  deriving DecidableEq, Repr

/-- What is answered during a run of `ResetVM.py`: whether the cloud lists machines, the
restoring, whether Zabbix knows the address of the seed, whether the machine is booted, the
return code of the copy, and whether `configCassandra.sh` is run over SSH. -/
structure ResetAnswers where
  listed : Bool := true
  restore : RestoreReply := .restored
  seed : Bool := true
  booted : Bool := true
  copied : Bool := true
  configured : Bool := true
  deriving DecidableEq, Repr

/-- From the seed on, both scripts ask the same. -/
def ResetAnswers.fromSeed (a : ResetAnswers) : AddAnswers where
  deploy := .unread false
  seed := a.seed
  booted := a.booted
  copied := a.copied
  configured := a.configured

namespace Site

section Scripts

variable (list : List Node → String → List Node)

/-- `AddVM.py` from the deployment on. -/
def addNode (name : String) (a : AddAnswers) : Eff Stop Site Unit :=
  match a.deploy with
  | .deployed ipaddress => do
    let s ← Eff.get
    onCluster (deployVirtualMachine name (some ipaddress))
    let seeds ← onCluster (findSeeds name ipaddress a)
    onCluster (configure a)
    configCassandra a.booted s.cluster.vms.nextId seeds
    onCluster (answered a.created)
    onCluster (Eff.modify fun c => { c with hosts := c.hosts ++ [⟨name, ipaddress⟩] })
  | _ => onCluster (Cassandra.addNode list name a)

/-- `AddVM.py`. -/
def addVm (argv : List String) (a : AddAnswers) : Eff Stop Site Unit := do
  onCluster (checkArgument argv)
  onCluster (answered a.counted)
  let numberNode ← onCluster countHosts
  addNode list (nodeName (numberNode + 1)) a

/-- `RemoveVM.py`; a disk that is destroyed has no number any more. -/
def removeVm (argv : List String) (a : RemoveAnswers) : Eff Stop Site Unit :=
  onCluster (Cassandra.removeVm list argv a)

/-- The disk of a machine is that of the template again. -/
def restore (id : ℕ) (wiped : Bool) : Eff Stop Site Unit :=
  if wiped then Eff.modify fun s => s.write id none else pure ()

/-- `ResetVM.py` from the restoring on. -/
def resetNode (name : String) (vm : Node) (a : ResetAnswers) : Eff Stop Site Unit :=
  match a.restore with
  | .unread wiped => do
    restore vm.id wiped
    raise .raised
  | .failed wiped => do
    restore vm.id wiped
    raise .exit
  | .restored => do
    restore vm.id true
    match vm.ipaddress with
    | none => raise .raised
    | some ipaddress =>
      let seeds ← onCluster (findSeeds name ipaddress a.fromSeed)
      onCluster (configure a.fromSeed)
      configCassandra a.booted vm.id seeds

/-- `ResetVM.py`; a list without machines is not JSON. -/
def resetVm (argv : List String) (a : ResetAnswers) : Eff Stop Site Unit :=
  match argv with
  | [] => raise .exit
  | arg :: _ => do
    let result ← onCluster (listVirtualMachines list arg)
    match if a.listed then result else [] with
    | [] => raise .exit
    | vm :: _ => resetNode arg vm a

end Scripts

end Site

/-- One run of one of the three scripts. -/
inductive SiteRun
  | script (r : ScriptRun)
  | resetVm (argv : List String) (a : ResetAnswers)
  deriving DecidableEq, Repr

/-- What a run leaves behind, wherever it stops. -/
def runSite (list : List Node → String → List Node) (s : Site) : SiteRun → Site
  | .script (.addVm argv a) => (run (Site.addVm list argv a) s).2
  | .script (.removeVm argv a) => (run (Site.removeVm list argv a) s).2
  | .resetVm argv a => (run (Site.resetVm list argv a) s).2

/-! ### The cluster below -/

section Scripts

variable (list : List Node → String → List Node)

theorem projects_onCluster {α : Type} (x : Eff Stop Cluster α) :
    Projects Site.cluster (onCluster x) x := Projects.within (fun _ _ => rfl) x

/-- The disks are not seen in the cluster. -/
theorem projects_configCassandra (booted : Bool) (id : ℕ) (seeds : String) :
    Projects Site.cluster (configCassandra booted id seeds) (pure ()) := by
  cases booted with
  | false => exact .pure ()
  | true => exact .modify fun _ => rfl

/-- **Over the cluster, the scripts are what they were.** -/
theorem projects_addVm (argv : List String) (a : AddAnswers) :
    Projects Site.cluster (Site.addVm list argv a) (addVm list argv a) := by
  refine (projects_onCluster _).bind fun _ => (projects_onCluster _).bind fun _ =>
    (projects_onCluster _).bind fun n => ?_
  unfold Site.addNode
  cases hdeploy : a.deploy with
  | unread left => exact projects_onCluster _
  | failed left destroyed => exact projects_onCluster _
  | deployed ipaddress =>
    have haddNode : addNode list (nodeName (n + 1)) a = (do
        deployVirtualMachine (nodeName (n + 1)) (some ipaddress)
        let _ ← findSeeds (nodeName (n + 1)) ipaddress a
        configure a
        answered a.created
        Eff.modify fun c =>
          { c with hosts := c.hosts ++ [⟨nodeName (n + 1), ipaddress⟩] }) := by
      simp only [addNode, hdeploy]
    rw [haddNode]
    exact Projects.read fun s => (projects_onCluster _).bind fun _ =>
      (projects_onCluster _).bind fun seeds => (projects_onCluster _).bind fun _ =>
        (projects_configCassandra _ _ _).silent
          ((projects_onCluster _).bind fun _ => projects_onCluster _)

/-- A script of the cluster does to it what it did. -/
theorem cluster_script (s : Site) (r : ScriptRun) :
    (runSite list s (.script r)).cluster = runScript list s.cluster r := by
  cases r with
  | addVm argv a => exact (projects_addVm list argv a).state s
  | removeVm argv a => exact (projects_onCluster _).state s

end Scripts

/-! ### What a reset does -/

theorem write_write (s : Site) (id : ℕ) (seed seed' : Option String) :
    (s.write id seed).write id seed' = s.write id seed' := by
  unfold Site.write
  rw [Function.update_idem]

theorem run_restore (s : Site) (id : ℕ) (wiped : Bool) :
    run (Site.restore id wiped) s = (.ok (), if wiped then s.write id none else s) := by
  cases wiped <;> rfl

theorem run_configCassandra (s : Site) (booted : Bool) (id : ℕ) (seeds : String) :
    run (configCassandra booted id seeds) s =
      (.ok (), if booted then s.write id (some seeds) else s) := by
  cases booted <;> rfl

/-- A statement that leaves the cluster as it is. -/
theorem run_onCluster {α : Type} {x : Eff Stop Cluster α} {s : Site} {out : Except Stop α}
    (h : run x s.cluster = (out, s.cluster)) : run (onCluster x) s = (out, s) := by
  rw [onCluster, run_within, h]

/-- Looking for the seed changes nothing. -/
theorem findSeeds_same (name ipaddress : String) (a : AddAnswers) (c : Cluster) :
    run (findSeeds name ipaddress a) c = ((run (findSeeds name ipaddress a) c).1, c) := by
  unfold findSeeds
  split_ifs with hname
  · rfl
  · cases hseed : a.seed with
    | false => rfl
    | true =>
      simp only [answered, getHost, if_true, run_bind, run_pure, run_get]
      cases c.hosts.find? (fun h => h.host == "CAS-1") with
      | none => rfl
      | some host => rfl

/-- The machine is configured if everything is answered. -/
def ResetAnswers.configures (a : ResetAnswers) : Bool := a.booted && a.copied && a.configured

/-- The seed is written where everything is answered. -/
theorem run_configured (a : ResetAnswers) (id : ℕ) (seeds : String) (s : Site) :
    (run (do
      onCluster (configure a.fromSeed)
      configCassandra a.booted id seeds) s).2 =
      if a.configures then s.write id (some seeds) else s := by
  obtain ⟨listed, restore, seed, booted, copied, configured⟩ := a
  cases booted with
  | false => rfl
  | true =>
    cases copied with
    | false => rfl
    | true => cases configured <;> rfl

/-- **The disk of the machine is all that a reset changes**: it is left, or that of the
template, or has the seed that was found. -/
theorem run_resetNode (name : String) {vm : Node} {ipaddress : String}
    (haddress : vm.ipaddress = some ipaddress) (a : ResetAnswers) (s : Site) :
    (run (Site.resetNode name vm a) s).2 = match a.restore with
      | .unread wiped => if wiped then s.write vm.id none else s
      | .failed wiped => if wiped then s.write vm.id none else s
      | .restored => match (run (findSeeds name ipaddress a.fromSeed) s.cluster).1 with
        | .error _ => s.write vm.id none
        | .ok seeds => s.write vm.id (if a.configures then some seeds else none) := by
  unfold Site.resetNode
  cases a.restore with
  | unread wiped =>
    rw [run_bind_ok (run_restore s vm.id wiped)]
    rfl
  | failed wiped =>
    rw [run_bind_ok (run_restore s vm.id wiped)]
    rfl
  | restored =>
    dsimp only
    rw [run_bind_ok (run_restore s vm.id true), haddress, if_pos rfl]
    have hseeds := run_onCluster (s := s.write vm.id none)
      (findSeeds_same name ipaddress a.fromSeed (s.write vm.id none).cluster)
    rw [cluster_write] at hseeds
    cases hfound : (run (findSeeds name ipaddress a.fromSeed) s.cluster).1 with
    | error e =>
      rw [hfound] at hseeds
      rw [run_bind_error hseeds]
    | ok seeds =>
      rw [hfound] at hseeds
      rw [run_bind_ok hseeds, run_configured]
      cases a.configures with
      | false => rfl
      | true => exact write_write s vm.id none (some seeds)

/-- A machine that was never started is not configured. -/
theorem run_resetNode_unstarted (name : String) {vm : Node} (haddress : vm.ipaddress = none)
    (a : ResetAnswers) (s : Site) :
    (run (Site.resetNode name vm a) s).2 = s ∨
      (run (Site.resetNode name vm a) s).2 = s.write vm.id none := by
  unfold Site.resetNode
  cases a.restore with
  | unread wiped => cases wiped <;> simp [run_bind, run_restore]
  | failed wiped => cases wiped <;> simp [run_bind, run_restore]
  | restored => simp [run_bind, run_restore, haddress]

/-- The disk of no other machine is written. -/
theorem resetNode_frame (name : String) (vm : Node) (a : ResetAnswers) (s : Site) :
    ∃ seed, (run (Site.resetNode name vm a) s).2 = s.write vm.id seed := by
  have hsame : s = s.write vm.id (s.seeds vm.id) := by
    rw [Site.write, Function.update_eq_self]
  have hwiped : ∀ wiped : Bool, ∃ seed,
      (if wiped then s.write vm.id none else s) = s.write vm.id seed := fun wiped => by
    cases wiped with
    | false => exact ⟨_, hsame⟩
    | true => exact ⟨none, rfl⟩
  cases haddress : vm.ipaddress with
  | none =>
    rcases run_resetNode_unstarted name haddress a s with hrun | hrun
    · exact ⟨_, hrun.trans hsame⟩
    · exact ⟨none, hrun⟩
  | some ipaddress =>
    rw [run_resetNode name haddress a s]
    cases a.restore with
    | unread wiped => exact hwiped wiped
    | failed wiped => exact hwiped wiped
    | restored =>
      cases (run (findSeeds name ipaddress a.fromSeed) s.cluster).1 with
      | error e => exact ⟨none, rfl⟩
      | ok seeds => exact ⟨_, rfl⟩

section Scripts

variable (list : List Node → String → List Node)

/-- The machine that a reset takes. -/
def taken (rows : List Node) (argv : List String) (a : ResetAnswers) : Option Node :=
  match argv with
  | [] => none
  | arg :: _ => if a.listed then (list rows arg).head? else none

theorem run_resetVm (argv : List String) (a : ResetAnswers) (s : Site) :
    runSite list s (.resetVm argv a) = match taken list s.cluster.vms.rows argv a with
      | none => s
      | some vm => (run (Site.resetNode (argv.headD "") vm a) s).2 := by
  cases argv with
  | nil => rfl
  | cons arg rest =>
    have hlisted : run (onCluster (listVirtualMachines list arg)) s =
        (.ok (list s.cluster.vms.rows arg), s) := run_onCluster rfl
    show (run (Site.resetVm list (arg :: rest) a) s).2 = _
    unfold Site.resetVm taken
    dsimp only
    rw [run_bind_ok hlisted]
    cases a.listed with
    | false => rfl
    | true => cases list s.cluster.vms.rows arg <;> rfl

variable {list}

/-- It is one of those that have the name in theirs. -/
theorem mem_taken (hlist : Lists list) {rows : List Node} {argv : List String} {a : ResetAnswers}
    {vm : Node} (h : taken list rows argv a = some vm) :
    vm ∈ rows ∧ IsPart (argv.headD "") vm.name := by
  cases argv with
  | nil => cases h
  | cons arg rest =>
    unfold taken at h
    dsimp only at h
    split_ifs at h
    exact (hlist _ _ _).mp (List.mem_of_mem_head? h)

end Scripts

/-! ### The other machines -/

theorem ten_mul_nodeName {n m : ℕ} (h : IsPart (nodeName n) (nodeName m)) (hne : n ≠ m) :
    10 * n ≤ m :=
  @ten_mul_le_of_part "CAS-" 'C' ['A', 'S', '-'] rfl (by decide) (by decide) _ _ h hne

/-- The list of a cloud that puts some machines first. -/
def preferring (p : Node → Bool) (rows : List Node) (name : String) : List Node :=
  (searched rows name).filter p ++ (searched rows name).filter fun vm => !p vm

theorem lists_preferring (p : Node → Bool) : Lists (preferring p) := by
  intro rows name vm
  rw [preferring, List.mem_append, List.mem_filter, List.mem_filter, ← lists_searched rows name vm]
  cases p vm <;> simp

/-- A reset asked for one node changes no other machine. -/
def ResetsOwn (c : Cluster) (k : ℕ) : Prop :=
  ∀ list, Lists list → ∀ seeds rest a, ∀ vm ∈ c.vms.rows,
    (runSite list ⟨c, seeds⟩ (.resetVm (nodeName k :: rest) a)).seeds vm.id ≠ seeds vm.id →
      vm.name = nodeName k

/-- **A reset spares the other machines of a registered cluster, whose machines and hosts are
`CAS-1` up to their number, whatever the cloud lists first, as long as there is no node with ten
times the number.** -/
theorem resets_own_iff {c : Cluster} (h : Registered c) {k : ℕ} (hk : 1 ≤ k) :
    ResetsOwn c k ↔ c.hosts.length < 10 * k := by
  constructor
  · intro hown
    by_contra hmany
    -- the cloud lists the node with ten times the number first
    have hother : nodeName (10 * k) ∈ c.vms.rows.map Node.name :=
      h.names.mem_iff.mpr (mem_firstNames.mpr ⟨10 * k, by omega, by omega, rfl⟩)
    obtain ⟨other, hmem, hname⟩ := List.mem_map.mp hother
    let p : Node → Bool := fun vm => vm.name == nodeName (10 * k)
    have hsearched : other ∈ (searched c.vms.rows (nodeName k)).filter p := by
      refine List.mem_filter.mpr ⟨(lists_searched _ _ _).mpr ⟨hmem, ?_⟩, beq_iff_eq.mpr hname⟩
      rw [hname]
      exact part_ten_mul "CAS-" hk
    obtain ⟨first, hfirst⟩ :
        ∃ first, (preferring p c.vms.rows (nodeName k)).head? = some first := by
      rw [preferring, List.head?_append_of_ne_nil _ (List.ne_nil_of_mem hsearched)]
      exact ⟨_, List.head?_eq_some_head (List.ne_nil_of_mem hsearched)⟩
    have hin : first ∈ (searched c.vms.rows (nodeName k)).filter p := by
      rw [preferring, List.head?_append_of_ne_nil _ (List.ne_nil_of_mem hsearched)] at hfirst
      exact List.mem_of_mem_head? hfirst
    obtain ⟨hlisted, hp⟩ := List.mem_filter.mp hin
    have hsame := hown (preferring p) (lists_preferring p) (fun _ => some "10.0.0.1") []
      { restore := .failed true } first ((lists_searched _ _ _).mp hlisted).1 ?_
    · rw [beq_iff_eq.mp hp] at hsame
      have hk' := numbered_injective "CAS-" hsame
      omega
    · have htaken : taken (preferring p) c.vms.rows [nodeName k] { restore := .failed true } =
          some first := hfirst
      rw [run_resetVm, htaken]
      show (Site.write ⟨c, _⟩ first.id none).seeds first.id ≠ _
      rw [seeds_write_self]
      exact Option.some_ne_none _ ∘ Eq.symm
  · intro hfew list hlist seeds rest a vm hvm hchanged
    rw [run_resetVm] at hchanged
    cases htaken : taken list c.vms.rows (nodeName k :: rest) a with
    | none =>
      rw [htaken] at hchanged
      exact absurd rfl hchanged
    | some first =>
      obtain ⟨hfirst, hpart⟩ := mem_taken hlist htaken
      rw [htaken] at hchanged
      obtain ⟨seed, hrun⟩ := resetNode_frame (nodeName k) first a ⟨c, seeds⟩
      have hid : vm.id = first.id := by
        by_contra hne
        refine hchanged ?_
        show (run (Site.resetNode (nodeName k) first a) ⟨c, seeds⟩).2.seeds vm.id = _
        rw [hrun, seeds_write_of_ne _ _ hne]
      obtain rfl := c.vms.eq_of_key hvm hfirst hid
      obtain ⟨m, -, hle, hname⟩ := h.name hvm
      rw [List.headD_cons, ← hname] at hpart
      by_contra hother
      have hten := ten_mul_nodeName hpart fun heq => hother (heq ▸ hname.symm)
      omega

/-- Clean runs leave a registered cluster. -/
theorem registered_runs {c : Cluster} {list : List Node → String → List Node}
    (hlist : Lists list) (h : Registered c) {runs : List ScriptRun}
    (hruns : Run.Along (Run.total (runScript list)) Clean c runs) :
    Registered (runs.foldl (runScript list) c) := by
  have hstep : ∀ c r, Registered c → Clean c r → Registered (runScript list c r) :=
    fun c r hc => (good_iff hc hlist r).2
  exact Run.foldl_inv_along hstep h hruns

/-- Of three nodes, the first is reset alone. -/
theorem resets_own_three :
    ResetsOwn ([addedNode "10.0.0.1" true, addedNode "10.0.0.2" true,
      addedNode "10.0.0.3" true].foldl (runScript searched) emptyCluster) 1 :=
  (resets_own_iff (registered_runs lists_searched registered_emptyCluster (by decide))
    (Nat.le_refl 1)).mpr (by decide)

/-! ### The ring -/

/-- Every machine that is configured has the first node for a seed. -/
def OneSeed (s : Site) : Prop :=
  ∀ host ∈ s.cluster.hosts, host.host = "CAS-1" → ∀ vm ∈ s.cluster.vms.rows,
    ∀ seed, s.seeds vm.id = some seed → seed = host.ip

section Scripts

variable (list : List Node → String → List Node)

/-- A run keeps the ring one.  If it adds or removes a node, it keeps the registry exact, and a
removal spares the last three nodes. -/
def Sound (s : Site) (r : SiteRun) : Prop :=
  OneSeed (runSite list s r) ∧ match r with
    | .script r => Good list s.cluster r
    | .resetVm _ _ => True

/-- A script that adds or removes a node is a clean run; and a machine that is configured
under the name of the first node has its address. -/
def Careful (s : Site) : SiteRun → Prop
  | .script r => Clean s.cluster r
  | .resetVm argv a =>
    argv.head? = some "CAS-1" → a.restore = .restored → a.configures = true →
      ∀ vm ∈ taken list s.cluster.vms.rows argv a, ∀ host ∈ s.cluster.hosts,
        host.host = "CAS-1" → vm.ipaddress = some host.ip

end Scripts

/-- What the careful runs keep: the registry is exact, Zabbix has the addresses of the
machines, a number that is not yet given has no disk, and the ring is one. -/
structure Ring (s : Site) : Prop where
  registered : Registered s.cluster
  addresses : ∀ vm ∈ s.cluster.vms.rows, ∀ host ∈ s.cluster.hosts, vm.name = host.host →
    vm.ipaddress = some host.ip
  blank : ∀ id, s.cluster.vms.nextId ≤ id → s.seeds id = none
  one : OneSeed s

section Steps

variable {list : List Node → String → List Node} {s : Site}

theorem nodup_firstNames (stem : String) (n : ℕ) : (firstNames stem n).Nodup :=
  List.nodup_range.map fun _ _ h => Nat.succ.inj (numbered_injective stem h)

/-- A name belongs to one host. -/
theorem Registered.host_eq {c : Cluster} (h : Registered c) {host host' : Host}
    (hhost : host ∈ c.hosts) (hhost' : host' ∈ c.hosts) (hname : host.host = host'.host) :
    host = host' :=
  List.inj_on_of_nodup_map (h.hosts.nodup_iff.mpr (nodup_firstNames _ _)) hhost hhost' hname

/-- The seed that is found is the address of the first node, or the own one. -/
theorem findSeeds_ok {name ipaddress seeds : String} {a : AddAnswers} {c : Cluster}
    (h : (run (findSeeds name ipaddress a) c).1 = .ok seeds) :
    if name = "CAS-1" then seeds = ipaddress
    else ∃ host ∈ c.hosts, host.host = "CAS-1" ∧ seeds = host.ip := by
  unfold findSeeds at h
  split_ifs at h ⊢ with hname
  · exact (Except.ok.inj h).symm
  · cases hseed : a.seed with
    | false =>
      rw [hseed] at h
      cases h
    | true =>
      rw [hseed] at h
      simp only [answered, getHost, if_true, run_bind, run_pure, run_get] at h
      cases hfind : c.hosts.find? fun h => h.host == "CAS-1" with
      | none =>
        rw [hfind] at h
        cases h
      | some host =>
        rw [hfind] at h
        have hname : host.host = "CAS-1" := by simpa using List.find?_some hfind
        exact ⟨host, List.mem_of_find?_eq_some hfind, hname, (Except.ok.inj h).symm⟩

/-! ### A reset -/

/-- The disk of one machine is written: the ring stays one if the seed is that of the
first node. -/
theorem Ring.write (h : Ring s) {vm : Node} (hvm : vm ∈ s.cluster.vms.rows)
    {seed : Option String} (hseed : ∀ x ∈ seed, ∀ host ∈ s.cluster.hosts,
      host.host = "CAS-1" → x = host.ip) : Ring (s.write vm.id seed) := by
  refine ⟨h.registered, h.addresses, fun id hid => ?_, fun host hhost hname other hother x hx => ?_⟩
  · have hless := s.cluster.vms.fresh vm hvm
    rw [cluster_write] at hid
    rw [seeds_write_of_ne _ _ (by omega)]
    exact h.blank id hid
  · by_cases hid : other.id = vm.id
    · rw [hid, seeds_write_self] at hx
      exact hseed x hx host hhost hname
    · rw [seeds_write_of_ne _ _ hid] at hx
      exact h.one host hhost hname other hother x hx

/-- **A reset keeps the ring one if and only if it is careful.** -/
theorem resetVm_step (h : Ring s) (hlist : Lists list) (argv : List String) (a : ResetAnswers) :
    (OneSeed (runSite list s (.resetVm argv a)) ↔ Careful list s (.resetVm argv a)) ∧
      (Careful list s (.resetVm argv a) → Ring (runSite list s (.resetVm argv a))) := by
  have hboth : Ring (runSite list s (.resetVm argv a)) → Careful list s (.resetVm argv a) →
      (OneSeed (runSite list s (.resetVm argv a)) ↔ Careful list s (.resetVm argv a)) ∧
        (Careful list s (.resetVm argv a) → Ring (runSite list s (.resetVm argv a))) :=
    fun hring hcareful => ⟨iff_of_true hring.one hcareful, fun _ => hring⟩
  cases htaken : taken list s.cluster.vms.rows argv a with
  | none =>
    refine hboth ?_ fun _ _ _ vm hvm => ?_
    · rw [run_resetVm, htaken]
      exact h
    · rw [htaken] at hvm
      cases hvm
  | some vm =>
    obtain ⟨hvm, -⟩ := mem_taken hlist htaken
    obtain ⟨ipaddress, haddress⟩ := Option.isSome_iff_exists.mp (h.registered.addresses vm hvm)
    have hnone : Ring (s.write vm.id none) := h.write hvm fun x hx => nomatch hx
    have hwiped : ∀ wiped : Bool, Ring (if wiped then s.write vm.id none else s) := fun wiped => by
      cases wiped with
      | false => exact h
      | true => exact hnone
    have hrun : runSite list s (.resetVm argv a) =
        (run (Site.resetNode (argv.headD "") vm a) s).2 := by
      rw [run_resetVm, htaken]
    rw [run_resetNode _ haddress] at hrun
    cases hrestore : a.restore with
    | unread wiped =>
      rw [hrestore] at hrun
      exact hboth (hrun ▸ hwiped wiped) fun _ hrestored => nomatch hrestore.symm.trans hrestored
    | failed wiped =>
      rw [hrestore] at hrun
      exact hboth (hrun ▸ hwiped wiped) fun _ hrestored => nomatch hrestore.symm.trans hrestored
    | restored =>
      rw [hrestore] at hrun
      cases hfound : (run (findSeeds (argv.headD "") ipaddress a.fromSeed) s.cluster).1 with
      | error e =>
        rw [hfound] at hrun
        refine hboth (hrun ▸ hnone) fun hfirst => ?_
        rw [List.headD_eq_head?_getD, hfirst] at hfound
        cases hfound
      | ok seeds =>
        rw [hfound] at hrun
        dsimp only at hrun
        cases hconfigures : a.configures with
        | false =>
          rw [hconfigures] at hrun
          exact hboth (hrun ▸ hnone) fun _ _ hgo => nomatch hconfigures.symm.trans hgo
        | true =>
          rw [hconfigures, if_pos rfl] at hrun
          have hseeds := findSeeds_ok hfound
          by_cases hfirst : argv.head? = some "CAS-1"
          · -- the seed is the machine's own address
            rw [List.headD_eq_head?_getD, hfirst, Option.getD_some, if_pos rfl] at hseeds
            obtain rfl := hseeds
            have hcareful : Careful list s (.resetVm argv a) ↔
                ∀ host ∈ s.cluster.hosts, host.host = "CAS-1" → vm.ipaddress = some host.ip :=
              ⟨fun hc => hc hfirst hrestore hconfigures vm htaken, fun hc _ _ _ other hother =>
                Option.some.inj (htaken.symm.trans hother) ▸ hc⟩
            have hring : Careful list s (.resetVm argv a) →
                Ring (runSite list s (.resetVm argv a)) := fun hc => by
              rw [hrun]
              refine h.write hvm fun x hx host hhost hname => ?_
              obtain rfl := Option.some.inj hx
              exact Option.some.inj (haddress.symm.trans (hcareful.mp hc host hhost hname))
            refine ⟨⟨fun hone => hcareful.mpr fun host hhost hname => ?_, fun hc => (hring hc).one⟩,
              hring⟩
            rw [hrun] at hone
            rw [haddress, hone host hhost hname vm hvm _ (seeds_write_self ..)]
          · -- it is that of the first node
            have hname : argv.headD "" ≠ "CAS-1" := by
              cases argv with
              | nil => decide
              | cons arg rest => exact fun heq => hfirst (congrArg some heq)
            rw [if_neg hname] at hseeds
            obtain ⟨first, hmem, hfirstname, rfl⟩ := hseeds
            refine hboth ?_ fun heq => absurd heq hfirst
            rw [hrun]
            refine h.write hvm fun x hx host hhost hhostname => ?_
            obtain rfl := Option.some.inj hx
            rw [h.registered.host_eq hmem hhost (hfirstname.trans hhostname.symm)]

/-! ### The two scripts -/

theorem keeps_answered {I : Cluster → Prop} (ok : Bool) : Keeps I (answered ok) := by
  cases ok with
  | false => exact .raise
  | true => exact .pure

theorem keeps_checkArgument {I : Cluster → Prop} (argv : List String) :
    Keeps I (checkArgument argv) := by
  cases argv with
  | nil => exact .raise
  | cons arg rest => exact Keeps.ite (fun _ => .pure) fun _ => .raise

theorem keeps_getHost {I : Cluster → Prop} (name : String) : Keeps I (getHost name) := by
  refine Keeps.bind Triple.read fun c => ?_
  cases c.hosts.find? fun h => h.host == name with
  | none => exact .raise
  | some host => exact .pure

/-- What `RemoveVM.py` leaves was there before. -/
structure Fewer (c d : Cluster) : Prop where
  vms : d.vms.rows ⊆ c.vms.rows
  hosts : d.hosts ⊆ c.hosts
  nextId : c.vms.nextId ≤ d.vms.nextId

theorem keeps_removeVm (c : Cluster) (argv : List String) (a : RemoveAnswers) :
    Keeps (Fewer c) (removeVm list argv a) := by
  refine (keeps_checkArgument argv).bind fun _ => (keeps_answered _).bind fun _ =>
    Keeps.bind (Keeps.bind Triple.read fun _ => .pure) fun n => ?_
  refine Keeps.ite (fun _ => .raise) fun _ => ?_
  refine Keeps.bind (Keeps.bind Triple.read fun _ => .pure) fun result => ?_
  cases (if a.listed then result else []) with
  | nil => exact .raise
  | cons vm rest =>
    refine (keeps_answered _).bind fun _ => Keeps.bind ?_ fun _ =>
      (keeps_getHost _).bind fun host => (keeps_answered _).bind fun _ => ?_
    · unfold destroyVirtualMachine
      refine Keeps.ite (fun _ => Triple.modify fun d hd => ?_) fun _ => .pure
      exact ⟨fun r hr => hd.vms (Table.mem_keep.mp hr).1, hd.hosts, hd.nextId⟩
    · exact Triple.modify fun d hd =>
        ⟨hd.vms, fun x hx => hd.hosts (List.mem_of_mem_erase hx), hd.nextId⟩

theorem Ring.fewer (h : Ring s) {c : Cluster} (hc : Registered c) (hfewer : Fewer s.cluster c) :
    Ring ⟨c, s.seeds⟩ where
  registered := hc
  addresses := fun vm hvm host hhost =>
    h.addresses vm (hfewer.vms hvm) host (hfewer.hosts hhost)
  blank := fun id hid => h.blank id (hfewer.nextId.trans hid)
  one := fun host hhost hname vm hvm =>
    h.one host (hfewer.hosts hhost) hname vm (hfewer.vms hvm)

/-- A node is added with its host, and its disk has the seed if it is booted. -/
theorem seeds_addNode (h : Registered s.cluster) {a : AddAnswers} {ipaddress : String}
    (hdeploy : a.deploy = .deployed ipaddress) (hclean : DeployReply.clean s.cluster a = true) :
    ∃ seeds, (run (findSeeds (nodeName (s.cluster.hosts.length + 1)) ipaddress a)
        (s.cluster.withVm (nodeName (s.cluster.hosts.length + 1)) (some ipaddress))).1 =
          .ok seeds ∧
      (run (Site.addNode list (nodeName (s.cluster.hosts.length + 1)) a) s).2.seeds =
        if a.booted then Function.update s.seeds s.cluster.vms.nextId (some seeds)
        else s.seeds := by
  let c₁ := s.cluster.withVm (nodeName (s.cluster.hosts.length + 1)) (some ipaddress)
  let s₁ : Site := { s with cluster := c₁ }
  have hmade : run (onCluster (deployVirtualMachine (nodeName (s.cluster.hosts.length + 1))
      (some ipaddress))) s = (.ok (), s₁) := rfl
  rw [DeployReply.clean, hdeploy] at hclean
  simp only [Bool.and_eq_true] at hclean
  obtain ⟨⟨hseed, hconfigured⟩, hcreated⟩ := hclean
  obtain ⟨out, hseeds, hok⟩ := run_findSeeds h ipaddress a c₁.vms
  obtain ⟨out', hconfigure, hok'⟩ := run_configure a c₁
  change run (findSeeds _ _ a) c₁ = (out, c₁) at hseeds
  have hret := hok.mpr hseed
  have hret' := hok'.mpr hconfigured
  cases out with
  | error e => cases hret
  | ok seeds =>
    cases out' with
    | error e => cases hret'
    | ok u =>
      refine ⟨seeds, congrArg Prod.fst hseeds, ?_⟩
      unfold Site.addNode
      simp only [hdeploy]
      rw [run_bind_ok (run_get s), run_bind_ok hmade, run_bind_ok (run_onCluster hseeds),
        run_bind_ok (run_onCluster hconfigure), run_bind_ok (run_configCassandra ..), hcreated]
      cases a.booted <;> rfl

theorem run_siteAddVm (argv : List String) (a : AddAnswers) :
    runSite list s (.script (.addVm argv a)) =
      if begins argv a.counted then
        (run (Site.addNode list (nodeName (s.cluster.hosts.length + 1)) a) s).2
      else s := by
  show (run (Site.addVm list argv a) s).2 = _
  unfold Site.addVm
  have hargument := run_checkArgument argv s.cluster
  by_cases hfirst : argv.head? = some "CAS-1"
  · rw [if_pos hfirst] at hargument
    rw [run_bind_ok (run_onCluster hargument)]
    cases hcounted : a.counted with
    | false => simp [begins, hfirst, run_bind, onCluster, run_answered]
    | true =>
      have hanswered : run (answered true) s.cluster = (.ok (), s.cluster) := rfl
      have hcount : run countHosts s.cluster = (.ok s.cluster.hosts.length, s.cluster) := rfl
      rw [run_bind_ok (run_onCluster hanswered), run_bind_ok (run_onCluster hcount)]
      simp [begins, hfirst]
  · rw [if_neg hfirst] at hargument
    rw [run_bind_error (run_onCluster hargument)]
    simp [begins, hfirst]

/-- The numbers of the machines are given once. -/
theorem keeps_addNode_nextId (n : ℕ) (name : String) (a : AddAnswers) :
    Keeps (fun d => n ≤ d.vms.nextId) (addNode list name a) := by
  have hdeployed : ∀ ipaddress, Keeps (fun d : Cluster => n ≤ d.vms.nextId)
      (deployVirtualMachine name ipaddress) :=
    fun ipaddress => Triple.modify fun d hd => Nat.le_succ_of_le hd
  have hleave : ∀ left, Keeps (fun d : Cluster => n ≤ d.vms.nextId) (leave name left) :=
    fun left => Keeps.ite (fun _ => hdeployed none) fun _ => .pure
  unfold addNode
  cases a.deploy with
  | unread left => exact (hleave left).bind fun _ => .raise
  | failed left destroyed =>
    refine (hleave left).bind fun _ => Keeps.bind (Keeps.bind Triple.read fun _ => .pure) ?_
    intro result
    cases result with
    | nil => exact .raise
    | cons vm rest =>
      refine Keeps.bind ?_ fun _ => .raise
      exact Keeps.ite (fun _ => Triple.modify fun d hd => hd) fun _ => .pure
  | deployed ipaddress =>
    refine (hdeployed _).bind fun _ => Keeps.bind ?_ fun _ => Keeps.bind ?_ fun _ =>
      (keeps_answered _).bind fun _ => Triple.modify fun d hd => hd
    · exact Keeps.ite (fun _ => .pure) fun _ =>
        (keeps_answered _).bind fun _ => (keeps_getHost _).bind fun _ => .pure
    · exact Keeps.ite (fun _ => Keeps.ite (fun _ => keeps_answered _) fun _ => .raise)
        fun _ => .pure

/-- The new machine has the seed, or none. -/
theorem Ring.withNode (h : Ring s) {ipaddress seeds : String} {a : AddAnswers}
    (hseeds : (run (findSeeds (nodeName (s.cluster.hosts.length + 1)) ipaddress a)
      (s.cluster.withVm (nodeName (s.cluster.hosts.length + 1)) (some ipaddress))).1 =
        .ok seeds) :
    Ring
      { cluster :=
          { s.cluster.withVm (nodeName (s.cluster.hosts.length + 1)) (some ipaddress) with
            hosts := s.cluster.hosts ++
              [⟨nodeName (s.cluster.hosts.length + 1), ipaddress⟩] }
        seeds := if a.booted then Function.update s.seeds s.cluster.vms.nextId (some seeds)
          else s.seeds } := by
  have hregistered := h.registered.withNode ipaddress
  have hone : "CAS-1" = nodeName 1 := by decide
  have hold : ∀ vm ∈ s.cluster.vms.rows, vm.name ≠ nodeName (s.cluster.hosts.length + 1) := by
    intro vm hvm heq
    obtain ⟨k, -, hle, hname⟩ := h.registered.name hvm
    have hsame := numbered_injective "CAS-" (hname.trans heq)
    omega
  have hnew : (⟨nodeName (s.cluster.hosts.length + 1), ipaddress⟩ : Host) ∈ s.cluster.hosts ++
      [⟨nodeName (s.cluster.hosts.length + 1), ipaddress⟩] :=
    List.mem_append_right _ List.mem_cons_self
  have hsame : ∀ id ≠ s.cluster.vms.nextId, (if a.booted then
      Function.update s.seeds s.cluster.vms.nextId (some seeds) else s.seeds) id = s.seeds id := by
    intro id hne
    cases a.booted with
    | false => rfl
    | true => exact Function.update_of_ne hne ..
  refine ⟨hregistered, fun vm hvm host hhost hname => ?_, fun id hid => ?_,
    fun host hhost hname vm hvm x hx => ?_⟩
  · -- names of machines and hosts agree in the old part and in the new
    rcases List.mem_append.mp hvm with hvm | hvm
    · rcases List.mem_append.mp hhost with hhost | hhost
      · exact h.addresses vm hvm host hhost hname
      · obtain rfl := List.mem_singleton.mp hhost
        exact absurd hname (hold vm hvm)
    · obtain rfl := List.mem_singleton.mp hvm
      rw [hregistered.host_eq hhost hnew hname.symm]
  · have hlater : s.cluster.vms.nextId + 1 ≤ id := hid
    exact (hsame id (by omega)).trans (h.blank id (by omega))
  · rcases List.mem_append.mp hvm with hvm | hvm
    · -- there was a first node
      have hsome : 1 ≤ s.cluster.hosts.length := by
        rw [← h.registered.names.length]
        exact List.length_pos_of_mem hvm
      have hfirst : "CAS-1" ∈ s.cluster.hosts.map Host.host :=
        h.registered.hosts.mem_iff.mpr (mem_firstNames.mpr ⟨1, Nat.le_refl 1, hsome, hone.symm⟩)
      obtain ⟨first, hmem, hfirstname⟩ := List.mem_map.mp hfirst
      obtain rfl := hregistered.host_eq hhost (List.mem_append_left _ hmem)
        (hname.trans hfirstname.symm)
      have hid := s.cluster.vms.fresh vm hvm
      exact h.one host hmem hname vm hvm x ((hsame vm.id (by omega)).symm.trans hx)
    · obtain rfl := List.mem_singleton.mp hvm
      dsimp only at hx
      have hwritten : x = seeds := by
        cases hbooted : a.booted with
        | false =>
          rw [hbooted] at hx
          exact nomatch (h.blank _ (Nat.le_refl _)).symm.trans hx
        | true =>
          rw [hbooted] at hx
          exact Option.some.inj (hx.symm.trans (Function.update_self ..))
      obtain rfl := hwritten
      have hfound := findSeeds_ok hseeds
      by_cases hfirst : nodeName (s.cluster.hosts.length + 1) = "CAS-1"
      · rw [if_pos hfirst] at hfound
        rw [hfound, hregistered.host_eq hhost hnew (hname.trans hfirst.symm)]
      · rw [if_neg hfirst] at hfound
        obtain ⟨first, hmem, hfirstname, hip⟩ := hfound
        rw [hip, hregistered.host_eq hhost (List.mem_append_left _ hmem)
          (hname.trans hfirstname.symm)]

/-- Without a new node, what a clean deployment leaves is the old cluster. -/
theorem Ring.withoutNode (h : Ring s) (hlist : Lists list) {a : AddAnswers}
    (hclean : DeployReply.clean s.cluster a = true)
    (hnone : ∀ ipaddress, a.deploy ≠ .deployed ipaddress) :
    Ring (run (Site.addNode list (nodeName (s.cluster.hosts.length + 1)) a) s).2 := by
  have hrun : (run (Site.addNode list (nodeName (s.cluster.hosts.length + 1)) a) s).2 =
      ⟨(run (addNode list (nodeName (s.cluster.hosts.length + 1)) a) s.cluster).2, s.seeds⟩ := by
    unfold Site.addNode
    cases hdeploy : a.deploy with
    | unread left => rfl
    | failed left destroyed => rfl
    | deployed ipaddress => exact absurd hdeploy (hnone ipaddress)
  have hsame : (run (addNode list (nodeName (s.cluster.hosts.length + 1)) a) s.cluster).2.hosts =
        s.cluster.hosts ∧
      (run (addNode list (nodeName (s.cluster.hosts.length + 1)) a) s.cluster).2.vms.rows =
        s.cluster.vms.rows := by
    rw [DeployReply.clean] at hclean
    cases hdeploy : a.deploy with
    | unread left =>
      rw [hdeploy, Bool.not_eq_true'] at hclean
      rw [addNode_unread hdeploy, hclean]
      exact ⟨rfl, rfl⟩
    | failed left destroyed =>
      obtain ⟨hhosts, hrows⟩ := addNode_failed h.registered hlist hdeploy
      rw [hdeploy] at hclean
      refine ⟨hhosts, hrows.trans ?_⟩
      cases left with
      | false => rfl
      | true =>
        cases destroyed with
        | false => cases hclean
        | true => rfl
    | deployed ipaddress => exact absurd hdeploy (hnone ipaddress)
  obtain ⟨hhosts, hrows⟩ := hsame
  rw [hrun]
  refine h.fewer (h.registered.of_same hrows hhosts) ⟨?_, ?_, ?_⟩
  · rw [hrows]
    exact List.Subset.refl _
  · rw [hhosts]
    exact List.Subset.refl _
  · exact (keeps_addNode_nextId _ _ a).state (Nat.le_refl _)

/-- **A clean run of one of the two scripts keeps the ring one.** -/
theorem script_step (h : Ring s) (hlist : Lists list) {r : ScriptRun}
    (hclean : Clean s.cluster r) : Ring (runSite list s (.script r)) := by
  have hregistered := (good_iff h.registered hlist r).2 hclean
  have hcluster := cluster_script list s r
  cases r with
  | removeVm argv a =>
    have hfewer : Fewer s.cluster (runScript list s.cluster (.removeVm argv a)) :=
      (keeps_removeVm s.cluster argv a).state ⟨fun _ hr => hr, fun _ hr => hr, Nat.le_refl _⟩
    exact h.fewer hregistered hfewer
  | addVm argv a =>
    rw [run_siteAddVm] at hcluster ⊢
    cases hbegins : begins argv a.counted with
    | false => exact h
    | true =>
      rw [hbegins, if_pos rfl] at hcluster
      rw [if_pos rfl]
      have hdeployclean := hclean hbegins
      cases hdeploy : a.deploy with
      | unread left =>
        have hnone : ∀ ipaddress, a.deploy ≠ .deployed ipaddress := by simp [hdeploy]
        exact h.withoutNode hlist hdeployclean hnone
      | failed left destroyed =>
        have hnone : ∀ ipaddress, a.deploy ≠ .deployed ipaddress := by simp [hdeploy]
        exact h.withoutNode hlist hdeployclean hnone
      | deployed ipaddress =>
        obtain ⟨seeds, hseeds, hwritten⟩ :=
          @seeds_addNode list s h.registered a ipaddress hdeploy hdeployclean
        have hscript : runScript list s.cluster (.addVm argv a) =
            (run (addNode list (nodeName (s.cluster.hosts.length + 1)) a) s.cluster).2 := by
          have hbegin : runScript list s.cluster (.addVm argv a) = if begins argv a.counted then
              (run (addNode list (nodeName (s.cluster.hosts.length + 1)) a) s.cluster).2
              else s.cluster := run_begin fun n => addNode list (nodeName (n + 1)) a
          rw [hbegin, hbegins, if_pos rfl]
        rw [hscript, addNode_deployed h.registered hdeploy, hdeployclean, if_pos rfl] at hcluster
        have hring := h.withNode hseeds
        rw [← hwritten, ← hcluster] at hring
        exact hring

/-! ### Runs of the scripts -/

/-- One run, in a ring. -/
theorem sound_iff (h : Ring s) (hlist : Lists list) (r : SiteRun) :
    (Sound list s r ↔ Careful list s r) ∧ (Careful list s r → Ring (runSite list s r)) := by
  cases r with
  | script r =>
    obtain ⟨hgood, -⟩ := good_iff h.registered hlist r
    refine ⟨⟨fun hsound => hgood.mp hsound.2, fun hclean => ?_⟩, script_step h hlist⟩
    exact ⟨(script_step h hlist hclean).one, hgood.mpr hclean⟩
  | resetVm argv a =>
    obtain ⟨hone, hring⟩ := resetVm_step h hlist argv a
    exact ⟨(iff_of_eq (and_true _)).trans hone, hring⟩

/-- **The registry stays exact, the last three nodes are spared and the ring stays one in exactly
the sequences of careful runs.** -/
theorem sound_runs_iff (hlist : Lists list) (h : Ring s) (runs : List SiteRun) :
    (∀ before r after, runs = before ++ r :: after →
        Sound list (before.foldl (runSite list) s) r) ↔
      Run.Along (Run.total (runSite list)) (Careful list) s runs := by
  rw [← Run.along_total_iff]
  refine @Run.along_iff _ _ _ _ Ring _ _ ?_ (fun s r _ hs => (sound_iff hs hlist r).1) _ h
  intro s r _ s' hs hsound hstep
  obtain rfl := Option.some.inj hstep
  obtain ⟨hiff, hring⟩ := sound_iff hs hlist r
  exact hring (hiff.mp hsound)

/-! ### Nine nodes -/

/-- Up to nine nodes, the first has no name that is part of another's. -/
theorem careful_of_few (h : Ring s) (hlist : Lists list) (hfew : s.cluster.hosts.length < 10)
    (argv : List String) (a : ResetAnswers) : Careful list s (.resetVm argv a) := by
  have hone : "CAS-1" = nodeName 1 := by decide
  intro hfirst hrestored hconfigures vm htaken host hhost hname
  obtain ⟨hvm, hpart⟩ := mem_taken hlist htaken
  obtain ⟨k, -, hle, hvmname⟩ := h.registered.name hvm
  rw [List.headD_eq_head?_getD, hfirst, Option.getD_some, hone, ← hvmname] at hpart
  have hk : 1 = k := by
    by_contra hne
    have hten := ten_mul_nodeName hpart hne
    omega
  refine h.addresses vm hvm host hhost ?_
  rw [hname, hone, hk, hvmname]

/-- A clean run of the two scripts, or a reset while there are at most nine nodes. -/
def Few (s : Site) : SiteRun → Prop
  | .script r => Clean s.cluster r
  | .resetVm _ _ => s.cluster.hosts.length < 10

instance (s : Site) (r : SiteRun) : Decidable (Few s r) := by
  cases r <;> (unfold Few; infer_instance)

/-- **With at most nine nodes, no reset makes a second ring.** -/
theorem ring_of_few (hlist : Lists list) (h : Ring s) {runs : List SiteRun}
    (hruns : Run.Along (Run.total (runSite list)) Few s runs) :
    Ring (runs.foldl (runSite list) s) := by
  refine Run.foldl_inv_along (fun s r hs hfew => ?_) h hruns
  refine (sound_iff hs hlist r).2 ?_
  cases r with
  | script r => exact hfew
  | resetVm argv a => exact careful_of_few hs hlist hfew argv a

end Steps

instance (list : List Node → String → List Node) (s : Site) (r : SiteRun) :
    Decidable (Careful list s r) := by
  cases r <;> (unfold Careful; infer_instance)

/-! ### Three nodes, and ten -/

/-- No node yet. -/
def emptySite : Site := ⟨emptyCluster, fun _ => none⟩

theorem ring_emptySite : Ring emptySite where
  registered := registered_emptyCluster
  addresses := fun _ hvm => absurd hvm List.not_mem_nil
  blank := fun _ _ => rfl
  one := fun _ hhost => absurd hhost List.not_mem_nil

/-- Nodes are added, one after the other. -/
def addedNodes (n : ℕ) : List SiteRun :=
  (List.range n).map fun k => .script (addedNode (numbered "10.0.0." (k + 1)) true)

/-- Three nodes, the second of which is put back only, and the first reset. -/
theorem sound_three :
    Sound searched ((addedNodes 3 ++ [SiteRun.resetVm ["CAS-2"] { booted := false }]).foldl
      (runSite searched) emptySite) (.resetVm ["CAS-1"] {}) :=
  (sound_runs_iff lists_searched ring_emptySite
    (addedNodes 3 ++ [.resetVm ["CAS-2"] { booted := false }, .resetVm ["CAS-1"] {}])).mpr
    (by decide) _ _ [] rfl

set_option maxRecDepth 8000 in
/-- **Of ten nodes, the last is reset in the place of the first, and is its own seed.** -/
theorem ring_apart :
    ¬ OneSeed ((addedNodes 10 ++ [SiteRun.resetVm ["CAS-1"] {}]).foldl
      (runSite (preferring fun vm => vm.name == "CAS-10")) emptySite) := by
  intro h
  have hseed := h ⟨"CAS-1", "10.0.0.1"⟩ (by decide) rfl ⟨10, "CAS-10", some "10.0.0.10"⟩
    (by decide) "10.0.0.10" (by decide)
  exact absurd hseed (by decide)

end BkPlatform.Cassandra
