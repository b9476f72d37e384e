import BkPlatform.Lib.Run
import BkPlatform.Mysql.Hosts

/-!
# Unique node numbers over rolling restarts

As long as a new number is free, one number stays with one address.  The search
for SQL nodes always finds a free one.  The search for data and management nodes
stops at 49 without asking whether 49 is free, and 49 is where the numbers of
SQL nodes begin; so it may hand out a number another host holds
(`clash_at_49`).  That is the only way two addresses come to share a number: the
numbers are unique in every run of a history if and only if no such search runs
into a held number (`uniqueIds_iff`).

## Main definitions

* `OneId` — the table holds no number for two addresses.
* `UniqueIds` — the tables of a run, and the numbers it writes, are unique.
* `OverflowFree` — the search does not run into a held number.

## Main results

* `oneId_assignNode` — one machine keeps the table unique iff it does not run into
  a held number.
* `uniqueIds_iff` — **the same for all runs of a history.**
* `overflowsFree_of_length` — a run over at most 49 machines is safe.
-/

namespace BkPlatform.Mysql

open Run

/-! ### Statements -/

/-- The table holds no number for two addresses. -/
def OneId (hosts : List Host) : Prop :=
  ∀ h ∈ hosts, ∀ h' ∈ hosts, h.id = h'.id → h.ipaddress = h'.ipaddress

/-- The tables of an assignment hold no number for two addresses. -/
def Assignment.OneId (s : Assignment) : Prop := Mysql.OneId s.hosts ∧ Mysql.OneId s.committed

/-- Through the whole run no number is held for two addresses, and the numbers written
to the file are pairwise distinct. -/
def UniqueIds (db : List Host) (vms : List Vm) : Prop :=
  (startRun db vms).OneId ∧
  Along (total assignNode) (fun s vm => (assignNode s vm).OneId) (startRun db vms) vms ∧
  ((rollingRestart db vms).config.filterMap Entry.nodeId).Nodup

/-- If the machine asks for a data or management number while all up to 48 are in use,
the number from 49 on that it is given is not held by another address. -/
def OverflowFree (s : Assignment) (vm : Vm) : Prop :=
  ∀ nodetype, vm.nodeType = some nodetype → nodetype ≠ .sql →
    nodetype.keeps (getID s.hosts vm.ipaddress) = false → s.exhausted →
    ∀ h ∈ s.hosts, h.id = max s.nextStart 49 → h.ipaddress = vm.ipaddress

/-- No machine of the run runs into a held number. -/
def OverflowsFree (db : List Host) (vms : List Vm) : Prop :=
  Along (total assignNode) OverflowFree (startRun db vms) vms

/-! ### One machine -/

/-- What one pass of the loop does. -/
theorem assignNode_cases (s : Assignment) (vm : Vm) :
    (vm.nodeType = none ∧ assignNode s vm = s) ∨
    (∃ nodetype, vm.nodeType = some nodetype ∧
      nodetype.keeps (getID s.hosts vm.ipaddress) = true ∧
      assignNode s vm = { s with
        config := s.config ++ [⟨nodetype, vm.ipaddress, getID s.hosts vm.ipaddress⟩] }) ∨
    (∃ nodetype, vm.nodeType = some nodetype ∧
      nodetype.keeps (getID s.hosts vm.ipaddress) = false ∧
      (assignNode s vm).hosts = updateID s.hosts vm.ipaddress (requestID s nodetype).1 ∧
      (assignNode s vm).committed = (assignNode s vm).hosts ∧
      (assignNode s vm).requestTmp = (requestID s nodetype).2.requestTmp ∧
      (assignNode s vm).requestTmpSql = (requestID s nodetype).2.requestTmpSql ∧
      (assignNode s vm).config =
        s.config ++ [⟨nodetype, vm.ipaddress, (requestID s nodetype).1⟩]) := by
  cases htype : vm.nodeType with
  | none => exact Or.inl ⟨rfl, by simp [assignNode, htype]⟩
  | some nodetype =>
    right
    cases hkeep : nodetype.keeps (getID s.hosts vm.ipaddress) with
    | true => exact Or.inl ⟨nodetype, rfl, hkeep, by simp [assignNode, htype, hkeep]⟩
    | false =>
      obtain ⟨hhosts, hconfig⟩ := requestID_state s nodetype
      refine Or.inr ⟨nodetype, rfl, hkeep, ?_⟩
      simp [assignNode, htype, hkeep, hhosts, hconfig]

/-- What holds of a run whatever numbers are chosen. -/
structure InRun (s : Assignment) : Prop where
  hosts : Wf s.hosts
  committed : Wf s.committed
  cursors : s.CursorsOk

/-- A node never goes on with the -1 of an address without a number. -/
theorem pos_of_keeps {nodetype : NodeType} {id : ℤ} (h : nodetype.keeps id = true) : 0 < id := by
  cases nodetype with
  | management => simpa [NodeType.keeps] using h
  | sql => simpa [NodeType.keeps] using h
  | data =>
    simp only [NodeType.keeps, Bool.and_eq_true, decide_eq_true_eq] at h
    exact h.1

theorem InRun.assignNode {s : Assignment} (h : InRun s) (vm : Vm) : InRun (assignNode s vm) := by
  rcases assignNode_cases s vm with
    ⟨-, heq⟩ | ⟨nodetype, -, -, heq⟩ | ⟨nodetype, -, -, hhosts, hcommitted, htmp, hsql, -⟩
  · -- the machine has no role
    rw [heq]
    exact h
  · -- it keeps its number
    rw [heq]
    exact ⟨h.hosts, h.committed, h.cursors.tmp, h.cursors.tmpSql⟩
  · -- it is given a new one
    obtain ⟨hpos, hcursors⟩ := requestID_pos h.cursors nodetype
    have hwf : Wf (Mysql.assignNode s vm).hosts := by
      rw [hhosts]
      exact h.hosts.updateID vm.ipaddress hpos
    refine ⟨hwf, ?_, ?_, ?_⟩
    · rw [hcommitted]
      exact hwf
    · rw [htmp]
      exact hcursors.tmp
    · rw [hsql]
      exact hcursors.tmpSql

/-- Giving an address a number keeps the table unique iff nobody else holds it. -/
theorem oneId_updateID {hosts : List Host} (hwf : Wf hosts) (hone : OneId hosts) (ip : Address)
    (id : ℤ) : OneId (updateID hosts ip id) ↔ ∀ h ∈ hosts, h.id = id → h.ipaddress = ip := by
  constructor
  · intro h x hx hid
    by_contra hne
    -- otherwise both rows are in the table after the update
    have hnew : ⟨id, ip⟩ ∈ updateID hosts ip id := (mem_updateID hwf).mpr (Or.inl rfl)
    have hold : x ∈ updateID hosts ip id := (mem_updateID hwf).mpr (Or.inr ⟨hx, hne⟩)
    exact hne (h x hold _ hnew hid)
  · intro h x hx y hy hid
    rcases (mem_updateID hwf).mp hx with rfl | ⟨hx, hxne⟩
    · rcases (mem_updateID hwf).mp hy with rfl | ⟨hy, hyne⟩
      · rfl
      · exact (h y hy hid.symm).symm
    · rcases (mem_updateID hwf).mp hy with rfl | ⟨hy, hyne⟩
      · exact h x hx hid
      · exact hone x hx y hy hid

/-- A number that is not in use is held by nobody. -/
theorem held_of_not_mem {hosts : List Host} {id : ℤ} (h : id ∉ ids hosts) {ip : Address} :
    ∀ x ∈ hosts, x.id = id → x.ipaddress = ip := by
  rintro x hx rfl
  exact absurd (List.mem_map_of_mem hx) h

/-- **One machine keeps the tables unique iff it does not run into a held number.** -/
theorem oneId_assignNode {s : Assignment} (h : InRun s) (hone : s.OneId) (vm : Vm) :
    (assignNode s vm).OneId ↔ OverflowFree s vm := by
  rcases assignNode_cases s vm with
    ⟨htype, heq⟩ | ⟨nodetype, htype, hkeep, heq⟩ | ⟨nodetype, htype, hkeep, hhosts, hcommitted, -⟩
  · rw [heq]
    refine ⟨fun _ t ht => ?_, fun _ => hone⟩
    rw [htype] at ht
    exact absurd ht (by simp)
  · rw [heq]
    refine ⟨fun _ t ht _ hkeep' => ?_, fun _ => hone⟩
    obtain rfl : nodetype = t := Option.some.inj (htype.symm.trans ht)
    rw [hkeep] at hkeep'
    exact absurd hkeep' (by decide)
  · have hiff : (assignNode s vm).OneId ↔
        ∀ x ∈ s.hosts, x.id = (requestID s nodetype).1 → x.ipaddress = vm.ipaddress := by
      rw [Assignment.OneId, hcommitted, and_self_iff, hhosts]
      exact oneId_updateID h.hosts hone.1 vm.ipaddress _
    rw [hiff]
    by_cases hsql : nodetype = .sql
    · -- the search for SQL nodes always finds a free number
      subst hsql
      refine ⟨fun _ t ht hne => ?_, fun _ => held_of_not_mem (requestID_sql_fresh s)⟩
      exact absurd (Option.some.inj (ht.symm.trans htype)) hne
    · rcases requestID_cases s hsql with ⟨hfree, hnot⟩ | ⟨hexhausted, hid⟩
      · refine ⟨fun _ t ht _ _ hexhausted => ?_, fun _ => held_of_not_mem hfree⟩
        exact absurd hexhausted hnot
      · rw [hid]
        refine ⟨fun hall t _ _ _ _ => hall, fun hfree => ?_⟩
        exact hfree nodetype htype hsql hkeep hexhausted

/-! ### The numbers of the file -/

/-- The addresses written are those of the machines that have a role, in order. -/
theorem config_hostnames (s : Assignment) (vms : List Vm) :
    (vms.foldl assignNode s).config.map Entry.hostname =
      s.config.map Entry.hostname ++
        (vms.filter fun vm => vm.nodeType.isSome).map Vm.ipaddress := by
  induction vms generalizing s with
  | nil => simp
  | cons vm vms ih =>
    rw [List.foldl_cons, ih]
    rcases assignNode_cases s vm with
      ⟨htype, heq⟩ | ⟨nodetype, htype, -, heq⟩ | ⟨nodetype, htype, -, -, -, -, -, hconfig⟩
    · simp [heq, htype]
    · simp [heq, htype]
    · simp [hconfig, htype]

/-- Every entry written has its row in the table, with the number written. -/
def Written (s : Assignment) : Prop := ∀ e ∈ s.config, ⟨e.id, e.hostname⟩ ∈ s.hosts

/-- A machine whose address has not been written yet keeps the rows of those that have. -/
theorem Written.assignNode {s : Assignment} (h : Written s) (hrun : InRun s) {vm : Vm}
    (hnew : vm.ipaddress ∉ s.config.map Entry.hostname) : Written (assignNode s vm) := by
  rcases assignNode_cases s vm with
    ⟨-, heq⟩ | ⟨nodetype, -, hkeep, heq⟩ | ⟨nodetype, -, -, hhosts, -, -, -, hconfig⟩
  · rw [heq]
    exact h
  · rw [heq]
    intro e he
    rcases List.mem_append.mp he with hold | hlast
    · exact h e hold
    · obtain rfl := List.mem_singleton.mp hlast
      exact mem_of_getID_pos (pos_of_keeps hkeep)
  · intro e he
    rw [hconfig] at he
    rw [hhosts, mem_updateID hrun.hosts]
    rcases List.mem_append.mp he with hold | hlast
    · -- the update changes the row of this machine only
      refine Or.inr ⟨h e hold, fun hip => hnew ?_⟩
      exact List.mem_map.mpr ⟨e, hold, hip⟩
    · obtain rfl := List.mem_singleton.mp hlast
      exact Or.inl rfl

/-- After a run over distinct addresses every entry has its row. -/
theorem Written.run {s : Assignment} {vms : List Vm} (h : Written s) (hrun : InRun s)
    (hdistinct : (s.config.map Entry.hostname ++ vms.map Vm.ipaddress).Nodup) :
    Written (vms.foldl Mysql.assignNode s) := by
  induction vms generalizing s with
  | nil => exact h
  | cons vm vms ih =>
    rw [List.map_cons] at hdistinct
    have hnew : vm.ipaddress ∉ s.config.map Entry.hostname := by
      intro hmem
      exact (List.nodup_append.mp hdistinct).2.2 _ hmem _ List.mem_cons_self rfl
    refine ih (h.assignNode hrun hnew) (hrun.assignNode vm) ?_
    have hnames := config_hostnames s [vm]
    rw [List.foldl_cons, List.foldl_nil] at hnames
    rw [hnames, List.append_assoc]
    refine hdistinct.sublist (List.Sublist.append (List.Sublist.refl _) ?_)
    cases htype : vm.nodeType with
    | none => simp [htype]
    | some t => simp [htype]

theorem InRun.run {s : Assignment} (h : InRun s) (vms : List Vm) :
    InRun (vms.foldl Mysql.assignNode s) :=
  foldl_inv (fun _ vm h => h.assignNode vm) h vms

theorem inRun_startRun {db : List Host} (hwf : Wf db) (vms : List Vm) : InRun (startRun db vms) :=
  ⟨hwf.filter _, hwf, ⟨Int.le_refl _, Int.le_refl _⟩⟩

/-- The numbers written are pairwise distinct if the table is unique at the end. -/
theorem nodup_nodeIds {db : List Host} (hwf : Wf db) {vms : List Vm}
    (hdistinct : (vms.map Vm.ipaddress).Nodup) (hone : OneId (rollingRestart db vms).hosts) :
    ((rollingRestart db vms).config.filterMap Entry.nodeId).Nodup := by
  have hstart := inRun_startRun hwf vms
  have hend := hstart.run vms
  have hwritten : Written (rollingRestart db vms) := by
    refine Written.run (fun e he => absurd he List.not_mem_nil) hstart ?_
    simpa [startRun] using hdistinct
  have hnames : ((rollingRestart db vms).config.map Entry.hostname).Nodup := by
    rw [rollingRestart, config_hostnames]
    simpa [startRun] using hdistinct.sublist (List.filter_sublist.map _)
  -- every entry is numbered
  have hids : (rollingRestart db vms).config.filterMap Entry.nodeId =
      (rollingRestart db vms).config.map Entry.id := by
    rw [← List.filterMap_eq_map]
    apply List.filterMap_congr
    intro e he
    have hpos : e.id > 0 := hend.hosts.pos _ (hwritten e he)
    simp [Entry.nodeId, hpos]
  rw [hids]
  refine List.Nodup.map_on (fun e he e' he' hid => ?_) (List.Nodup.of_map _ hnames)
  have hip : e.hostname = e'.hostname := hone _ (hwritten e he) _ (hwritten e' he') hid
  exact List.inj_on_of_nodup_map hnames he he' hip

/-! ### Histories -/

/-- What a run finds: a table with one row for each address and unique numbers. -/
structure DbOk (db : List Host) : Prop where
  wf : Wf db
  oneId : OneId db

theorem oneId_startRun {db : List Host} (h : DbOk db) (vms : List Vm) :
    (startRun db vms).OneId := by
  refine ⟨fun x hx y hy hid => ?_, h.oneId⟩
  exact h.oneId x (List.mem_filter.mp hx).1 y (List.mem_filter.mp hy).1 hid

/-- **One run keeps its tables and its file unique iff no machine of it runs into a held
number.** -/
theorem uniqueIds_run {db : List Host} (h : DbOk db) {vms : List Vm}
    (hdistinct : (vms.map Vm.ipaddress).Nodup) : UniqueIds db vms ↔ OverflowsFree db vms := by
  have hstart := oneId_startRun h vms
  have hiff : Along (total assignNode) (fun s vm => (assignNode s vm).OneId) (startRun db vms) vms ↔
      OverflowsFree db vms := by
    refine along_iff (I := fun s => InRun s ∧ s.OneId) ?_ ?_ ⟨inRun_startRun h.wf vms, hstart⟩
    · intro s vm _ t hs hone ht
      obtain rfl := Option.some.inj ht
      exact ⟨hs.1.assignNode vm, hone⟩
    · intro s vm _ hs
      exact oneId_assignNode hs.1 hs.2 vm
  constructor
  · intro hunique
    exact hiff.mp hunique.2.1
  · intro hfree
    have halong := hiff.mpr hfree
    have hend : (rollingRestart db vms).OneId :=
      foldl_inv_along (I := Assignment.OneId) (fun _ _ _ hone => hone) hstart halong
    exact ⟨hstart, halong, nodup_nodeIds h.wf hdistinct hend.1⟩

/-- A run that keeps its tables unique leaves a good table to the next. -/
theorem DbOk.nextDb {db : List Host} (h : DbOk db) {vms : List Vm} (hunique : UniqueIds db vms) :
    DbOk (nextDb db vms) where
  wf := ((inRun_startRun h.wf vms).run vms).committed
  oneId := (foldl_inv_along (I := Assignment.OneId) (fun _ _ _ hone => hone) hunique.1
    hunique.2.1).2

/-- **The numbers are unique in every run of a history that starts with an empty table
iff in no run a machine runs into a held number.** -/
theorem uniqueIds_iff {runs : List (List Vm)}
    (hdistinct : ∀ vms ∈ runs, (vms.map Vm.ipaddress).Nodup) :
    Along (total nextDb) UniqueIds [] runs ↔ Along (total nextDb) OverflowsFree [] runs := by
  refine along_iff (I := DbOk) ?_ ?_ ⟨wf_nil, fun x hx => absurd hx List.not_mem_nil⟩
  · intro db vms _ db' h hunique hnext
    obtain rfl := Option.some.inj hnext
    exact h.nextDb hunique
  · intro db vms hvms h
    exact uniqueIds_run h (hdistinct vms hvms)

/-! ### Clusters of up to 49 machines -/

/-- What holds in a run besides: only listed addresses have rows, and the numbers below 49
that the cursor has passed are in use. -/
structure Counted (listed : List Address) (s : Assignment) : Prop where
  listed : ∀ h ∈ s.hosts, h.ipaddress ∈ listed
  passed : ∀ i, 0 < i → i < s.nextStart → i < 49 → i ∈ ids s.hosts

/-- A number below 49 stays with its address: every role keeps it. -/
theorem mem_ids_updateID {s : Assignment} (hrun : InRun s) {vm : Vm} {nodetype : NodeType}
    (hkeep : nodetype.keeps (getID s.hosts vm.ipaddress) = false) {i : ℤ} (hpos : 0 < i)
    (hlt : i < 49) (hi : i ∈ ids s.hosts) (id : ℤ) :
    i ∈ ids (updateID s.hosts vm.ipaddress id) := by
  obtain ⟨h, hh, rfl⟩ := List.mem_map.mp hi
  refine List.mem_map.mpr ⟨h, (mem_updateID hrun.hosts).mpr (Or.inr ⟨hh, fun hip => ?_⟩), rfl⟩
  rw [← hip, getID_of_mem hrun.hosts hh] at hkeep
  cases nodetype <;> simp [NodeType.keeps] at hkeep <;> omega

theorem Counted.assignNode {listed : List Address} {s : Assignment} (h : Counted listed s)
    (hrun : InRun s) {vm : Vm} (hvm : vm.ipaddress ∈ listed) :
    Counted listed (assignNode s vm) := by
  rcases assignNode_cases s vm with
    ⟨-, heq⟩ | ⟨nodetype, -, -, heq⟩ | ⟨nodetype, -, hkeep, hhosts, -, htmp, -, -⟩
  · rw [heq]
    exact h
  · rw [heq]
    exact ⟨h.listed, h.passed⟩
  · refine ⟨fun x hx => ?_, fun i hpos hi hlt => ?_⟩
    · rw [hhosts] at hx
      rcases (mem_updateID hrun.hosts).mp hx with rfl | ⟨hx, -⟩
      · exact hvm
      · exact h.listed x hx
    · rw [hhosts]
      have hstill := fun hi => mem_ids_updateID hrun hkeep hpos hlt hi (requestID s nodetype).1
      by_cases hsql : nodetype = .sql
      · -- an SQL node does not move this cursor
        subst hsql
        refine hstill (h.passed i hpos ?_ hlt)
        rwa [Assignment.nextStart, htmp] at hi
      · -- the cursor now stands right after the new number
        have hnext : (Mysql.assignNode s vm).nextStart = (requestID s nodetype).1 + 1 := by
          rw [Assignment.nextStart, htmp]
          cases nodetype with
          | sql => exact absurd rfl hsql
          | management => simp only [requestID]; omega
          | data => simp only [requestID]; omega
        obtain ⟨-, hpassed, -⟩ := requestID_walk s hsql
        rw [hnext] at hi
        -- passed before this search, in it, or where it has ended
        rcases Int.lt_or_le i s.nextStart with hold | hnew
        · exact hstill (h.passed i hpos hold hlt)
        · rcases Int.lt_or_eq_of_le (Int.lt_add_one_iff.mp hi) with hbefore | rfl
          · exact hstill (hpassed i hnew hbefore).1
          · exact List.mem_map.mpr ⟨_, (mem_updateID hrun.hosts).mpr (Or.inl rfl), rfl⟩

/-- The numbers 1 to 48. -/
def lowIds : List ℤ := (List.range 48).map fun i : ℕ => (i : ℤ) + 1

theorem mem_lowIds {i : ℤ} : i ∈ lowIds ↔ 0 < i ∧ i < 49 := by
  rw [lowIds, List.mem_map]
  constructor
  · rintro ⟨n, hn, rfl⟩
    have hlt := List.mem_range.mp hn
    omega
  · rintro ⟨hpos, hlt⟩
    exact ⟨(i - 1).toNat, List.mem_range.mpr (by omega), by omega⟩

/-- A machine runs into a held number only if 50 machines are listed: 48 hold the numbers
up to 48, one the held number, and none of these is the machine itself. -/
theorem overflowFree_of_counted {listed : List Address} (hlisted : listed.length ≤ 49)
    {s : Assignment} (h : Counted listed s) (hrun : InRun s) {vm : Vm}
    (hvm : vm.ipaddress ∈ listed) : OverflowFree s vm := by
  intro nodetype _ _ hkeep hexhausted x hx hid
  by_contra hne
  -- the rows of the other machines hold 48 numbers below 49, and the one of `x`
  let others := s.hosts.filter fun y => y.ipaddress ≠ vm.ipaddress
  have hheld : ∀ i ∈ x.id :: lowIds, i ∈ ids others := by
    intro i hi
    rcases List.mem_cons.mp hi with rfl | hlow
    · exact List.mem_map.mpr ⟨x, List.mem_filter.mpr ⟨hx, by simpa using hne⟩, rfl⟩
    · obtain ⟨hpos, hlt⟩ := mem_lowIds.mp hlow
      have hin : i ∈ ids s.hosts := by
        rcases Int.lt_or_le i s.nextStart with hold | hnew
        · exact h.passed i hpos hold hlt
        · exact hexhausted i hnew hlt
      obtain ⟨y, hy, rfl⟩ := List.mem_map.mp hin
      -- the machine itself holds none of these, or it would keep it
      refine List.mem_map.mpr ⟨y, List.mem_filter.mpr ⟨hy, ?_⟩, rfl⟩
      simp only [ne_eq, decide_eq_true_eq]
      intro hip
      rw [← hip, getID_of_mem hrun.hosts hy] at hkeep
      cases nodetype <;> simp [NodeType.keeps] at hkeep <;> omega
  have hnodup : (x.id :: lowIds).Nodup := by
    refine List.nodup_cons.mpr ⟨fun hmem => ?_, by decide⟩
    have hlt := (mem_lowIds.mp hmem).2
    omega
  have hmany : 49 ≤ others.length := by
    have hle := (List.subperm_of_subset hnodup hheld).length_le
    simpa [ids, lowIds] using hle
  -- and with the machine itself they are at most as many as the listed addresses
  have hfew : others.length + 1 ≤ listed.length := by
    have haddr : (vm.ipaddress :: others.map Host.ipaddress).Nodup := by
      refine List.nodup_cons.mpr ⟨fun hmem => ?_, (hrun.hosts.filter _).nodup⟩
      obtain ⟨y, hy, hip⟩ := List.mem_map.mp hmem
      simpa [hip] using (List.mem_filter.mp hy).2
    have hsub : ∀ a ∈ vm.ipaddress :: others.map Host.ipaddress, a ∈ listed := by
      intro a ha
      rcases List.mem_cons.mp ha with rfl | ha
      · exact hvm
      · obtain ⟨y, hy, rfl⟩ := List.mem_map.mp ha
        exact h.listed y (List.mem_filter.mp hy).1
    simpa using (List.subperm_of_subset haddr hsub).length_le
  omega

/-- **A run over at most 49 machines never runs into a held number.** -/
theorem overflowsFree_of_length {db : List Host} (hwf : Wf db) {vms : List Vm}
    (hlength : vms.length ≤ 49) : OverflowsFree db vms := by
  have hstart : InRun (startRun db vms) ∧ Counted (vms.map Vm.ipaddress) (startRun db vms) := by
    refine ⟨inRun_startRun hwf vms, fun x hx => ?_, fun i hpos hi _ => ?_⟩
    · simpa using (List.mem_filter.mp hx).2
    · simp only [Assignment.nextStart, startRun] at hi
      omega
  have halong : Along (total assignNode) (fun _ vm => vm ∈ vms) (startRun db vms) vms :=
    along_total_of_forall (fun _ hvm => hvm) _
  refine (along_iff (I := fun s => InRun s ∧ Counted (vms.map Vm.ipaddress) s)
    ?_ ?_ hstart).mp halong
  · intro s vm hvm t hs _ ht
    obtain rfl := Option.some.inj ht
    exact ⟨hs.1.assignNode vm, hs.2.assignNode hs.1 (List.mem_map_of_mem hvm)⟩
  · intro s vm hvm hs
    refine ⟨fun _ => ?_, fun _ => hvm⟩
    exact overflowFree_of_counted (by simpa using hlength) hs.2 hs.1 (List.mem_map_of_mem hvm)

/-! ### The condition is needed -/

/-- A machine with the given last byte in its address. -/
def node (displayname : String) (d : ℕ) : Vm := ⟨displayname, ⟨10, 0, 0, Fin.ofNat 256 d⟩⟩

/-- One SQL node and 49 data nodes. -/
def bigCluster : List Vm :=
  node "bk-mysql-sql-1" 1 :: (List.range 49).map fun i => node "bk-mysql-data" (i + 2)

/-- The SQL node is given 49, and so is the last data node, in the first run already. -/
theorem clash_at_49 :
    (bigCluster.map Vm.ipaddress).Nodup ∧ ¬ UniqueIds [] bigCluster ∧
    ((rollingRestart [] bigCluster).hosts.filter fun h => h.id = 49).map Host.ipaddress =
      [⟨10, 0, 0, 1⟩, ⟨10, 0, 0, 50⟩] := by
  refine ⟨by decide +kernel, fun h => absurd h.2.2 (by decide +kernel), by decide +kernel⟩

/-- A cluster of three nodes, and the same with its SQL node turned into a data node. -/
def smallHistory : List (List Vm) :=
  [[node "bk-mysql-mgm" 1, node "bk-mysql-sql-1" 2, node "bk-mysql-data-1" 3],
   [node "bk-mysql-mgm" 1, node "bk-mysql-data-2" 2, node "bk-mysql-data-1" 3]]

/-- Its numbers are unique in both runs. -/
theorem uniqueIds_smallHistory : Along (total nextDb) UniqueIds [] smallHistory := by
  refine (uniqueIds_iff (by decide)).mpr ?_
  have hwf : Wf (nextDb [] (smallHistory.head (by decide))) :=
    ((inRun_startRun wf_nil _).run _).committed
  rw [smallHistory, along_total_cons, along_total_cons]
  exact ⟨overflowsFree_of_length wf_nil (by decide), overflowsFree_of_length hwf (by decide),
    trivial⟩

end BkPlatform.Mysql
