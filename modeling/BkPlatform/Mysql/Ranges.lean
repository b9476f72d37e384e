import BkPlatform.Mysql.NodeIds

/-!
# The two ranges of node numbers

Data and management nodes are to be numbered from 1 to 48, and SQL nodes from 49
on, each the first of four API slots.  The two searches keep to these ranges but
for the one that runs past 48; what crosses over are the numbers that are kept.
The table remembers the number of an address and not its role: an address that
comes back as an SQL node keeps any number, and one that comes back as a
management node any positive one.  Only the branch for data nodes asks whether
the number is one of its own.

## Main definitions

* `NodeType.InRange`, `InRoles` — the ranges, and the numbers written to a file.
* `SideKept` — a machine keeps a number of its own side, or is given one.

## Main results

* `inRoles_assignNode` — one machine is numbered in its range iff it meets that.
* `inRoles_iff` — **the same for all runs of a history.**
-/

namespace BkPlatform.Mysql

open Run Probe

/-! ### Statements -/

/-- The numbers meant for nodes of this type. -/
def NodeType.InRange : NodeType → ℤ → Prop
  | .sql, id => ∃ k : ℕ, id = 49 + 4 * k
  | .management, id => 1 ≤ id ∧ id ≤ 48
  | .data, id => 1 ≤ id ∧ id ≤ 48

/-- Every number written to the file is in the range of its node. -/
def InRoles (config : List Entry) : Prop := ∀ e ∈ config, ∀ id ∈ e.nodeId, e.nodetype.InRange id

/-- A machine that keeps the number of its address has one of its own side of 49, and a
machine that asks for a data or management number finds one up to 48 free. -/
def SideKept (s : Assignment) (vm : Vm) : Prop :=
  ∀ nodetype, vm.nodeType = some nodetype →
    (nodetype.keeps (getID s.hosts vm.ipaddress) = true →
      (nodetype = .sql ↔ 49 ≤ getID s.hosts vm.ipaddress)) ∧
    (nodetype.keeps (getID s.hosts vm.ipaddress) = false → nodetype ≠ .sql → ¬ s.exhausted)

/-- Every machine of the run does. -/
def SidesKept (db : List Host) (vms : List Vm) : Prop :=
  Along (total assignNode) SideKept (startRun db vms) vms

/-! ### One machine -/

/-- The numbers of a table are all in one of the ranges. -/
def TwoSided (hosts : List Host) : Prop :=
  ∀ h ∈ hosts, ∃ nodetype : NodeType, nodetype.InRange h.id

/-- What holds in a run as long as every number written is in its range. -/
structure Sided (s : Assignment) : Prop where
  inRun : InRun s
  hosts : TwoSided s.hosts
  committed : TwoSided s.committed
  /-- The cursor for SQL nodes stands right before the start of four slots. -/
  cursor : ∃ j : ℕ, s.requestTmpSql = 4 * j - 1

theorem inRange_iff_lt {nodetype : NodeType} (hsql : nodetype ≠ .sql) {id : ℤ} (hpos : 0 < id) :
    nodetype.InRange id ↔ id < 49 := by
  cases nodetype with
  | sql => exact absurd rfl hsql
  | management => simp only [NodeType.InRange]; omega
  | data => simp only [NodeType.InRange]; omega

/-- A number of one of the ranges is that of an SQL node iff it is not below 49. -/
theorem inRange_sql_iff {nodetype : NodeType} {id : ℤ} (h : nodetype.InRange id) :
    NodeType.sql.InRange id ↔ 49 ≤ id := by
  constructor
  · rintro ⟨k, rfl⟩
    omega
  · intro hle
    cases nodetype with
    | sql => exact h
    | management => simp only [NodeType.InRange] at h; omega
    | data => simp only [NodeType.InRange] at h; omega

/-- A number that is kept is in the range of its node iff it is of the node's side. -/
theorem inRange_keeps_iff {nodetype side : NodeType} {id : ℤ} (hpos : 0 < id)
    (hside : side.InRange id) : nodetype.InRange id ↔ (nodetype = .sql ↔ 49 ≤ id) := by
  by_cases hsql : nodetype = .sql
  · subst hsql
    rw [inRange_sql_iff hside]
    exact (iff_of_eq (true_iff _)).symm.trans (by simp)
  · rw [inRange_iff_lt hsql hpos]
    have hnot : (nodetype = .sql ↔ 49 ≤ id) ↔ ¬ 49 ≤ id := by simp [hsql]
    rw [hnot]
    omega

/-- The search for data and management nodes stays below 49 iff a number is free there. -/
theorem requestID_lt_iff (s : Assignment) {nodetype : NodeType} (hsql : nodetype ≠ .sql) :
    (requestID s nodetype).1 < 49 ↔ ¬ s.exhausted := by
  obtain ⟨hup, hpassed, hfree⟩ := requestID_walk s hsql
  constructor
  · intro hlt hexhausted
    exact hfree hlt (hexhausted _ hup hlt)
  · intro hnot
    by_contra hge
    exact hnot fun i hstart hi => (hpassed i hstart (by omega)).1

/-- The search for SQL nodes goes from one start of four slots to the next. -/
theorem requestID_sql {s : Assignment} {j : ℕ} (hcursor : s.requestTmpSql = 4 * j - 1) :
    ∃ k : ℕ, (requestID s .sql).1 = 49 + 4 * k ∧
      (requestID s .sql).2.requestTmpSql = 4 * ((k + 1 : ℕ) : ℤ) - 1 := by
  obtain ⟨k, hk, -⟩ :=
    probe_walk (fun i => i ∈ ids s.hosts) 4 (ids s.hosts).length (49 + s.requestTmpSql + 1)
  rw [hcursor] at hk
  have hfound : (requestID s .sql).1 = 49 + 4 * ((j + k : ℕ) : ℤ) := by
    simp only [requestID, hcursor, hk]
    push_cast
    ring
  refine ⟨j + k, hfound, ?_⟩
  have hcursor' : (requestID s .sql).2.requestTmpSql = (requestID s .sql).1 - 49 + 3 := rfl
  rw [hcursor', hfound]
  push_cast
  ring

/-- What is written to the file for one more machine. -/
theorem inRoles_snoc {config : List Entry} {e : Entry} (hpos : 0 < e.id) :
    InRoles (config ++ [e]) ↔ InRoles config ∧ e.nodetype.InRange e.id := by
  have hid : e.nodeId = some e.id := if_pos hpos
  simp only [InRoles, List.mem_append, List.mem_singleton]
  constructor
  · intro h
    exact ⟨fun x hx => h x (Or.inl hx), h e (Or.inr rfl) e.id hid⟩
  · rintro ⟨hold, hnew⟩ x (hx | rfl)
    · exact hold x hx
    · intro id hsome
      rw [hid] at hsome
      obtain rfl := Option.some.inj hsome
      exact hnew

/-- **One machine is numbered in its range iff it keeps to its side.** -/
theorem inRoles_assignNode {s : Assignment} (h : Sided s) (vm : Vm) :
    InRoles (assignNode s vm).config ↔ InRoles s.config ∧ SideKept s vm := by
  rcases assignNode_cases s vm with
    ⟨htype, heq⟩ | ⟨nodetype, htype, hkeep, heq⟩ | ⟨nodetype, htype, hkeep, -, -, -, -, hconfig⟩
  · -- a machine without a role is not written
    rw [heq]
    refine (and_iff_left fun t ht => ?_).symm
    rw [htype] at ht
    exact absurd ht (by simp)
  · have hpos := pos_of_keeps hkeep
    obtain ⟨side, hside⟩ := h.hosts _ (mem_of_getID_pos hpos)
    have hkept : SideKept s vm ↔ (nodetype = .sql ↔ 49 ≤ getID s.hosts vm.ipaddress) := by
      simp [SideKept, htype, hkeep]
    rw [heq, inRoles_snoc hpos, hkept]
    exact and_congr_right fun _ => inRange_keeps_iff hpos hside
  · have hpos := (requestID_pos h.inRun.cursors nodetype).1
    have hasked : SideKept s vm ↔ (nodetype ≠ .sql → ¬ s.exhausted) := by
      simp [SideKept, htype, hkeep]
    rw [hconfig, inRoles_snoc hpos, hasked]
    apply and_congr_right
    intro _
    by_cases hsql : nodetype = .sql
    · -- the search for SQL nodes never leaves the range
      subst hsql
      obtain ⟨j, hj⟩ := h.cursor
      obtain ⟨k, hk, -⟩ := requestID_sql hj
      exact iff_of_true ⟨k, hk⟩ fun hne => absurd rfl hne
    · rw [inRange_iff_lt hsql hpos, requestID_lt_iff s hsql]
      exact (forall_prop_of_true (q := fun _ => ¬ s.exhausted) hsql).symm

/-- A machine that is numbered in its range leaves the ranges as they are. -/
theorem Sided.assignNode {s : Assignment} (h : Sided s) {vm : Vm}
    (hroles : InRoles (assignNode s vm).config) : Sided (assignNode s vm) := by
  have hrun := h.inRun.assignNode vm
  rcases assignNode_cases s vm with
    ⟨-, heq⟩ | ⟨nodetype, -, -, heq⟩ |
      ⟨nodetype, -, -, hhosts, hcommitted, -, hsqlcursor, hconfig⟩
  · rw [heq]
    exact h
  · rw [heq] at hrun ⊢
    exact ⟨hrun, h.hosts, h.committed, h.cursor⟩
  · have hpos := (requestID_pos h.inRun.cursors nodetype).1
    rw [hconfig, inRoles_snoc hpos] at hroles
    have hsided : TwoSided (Mysql.assignNode s vm).hosts := by
      rw [hhosts]
      intro x hx
      rcases (mem_updateID h.inRun.hosts).mp hx with rfl | ⟨hold, -⟩
      · exact ⟨nodetype, hroles.2⟩
      · exact h.hosts x hold
    refine ⟨hrun, hsided, ?_, ?_⟩
    · rw [hcommitted]
      exact hsided
    · rw [hsqlcursor]
      obtain ⟨j, hj⟩ := h.cursor
      cases nodetype with
      | sql =>
        obtain ⟨k, -, hcursor⟩ := requestID_sql hj
        exact ⟨k + 1, hcursor⟩
      | management => exact ⟨j, hj⟩
      | data => exact ⟨j, hj⟩

/-! ### Histories -/

/-- What a run finds: one row for each address, and numbers of the two ranges. -/
structure DbSided (db : List Host) : Prop where
  wf : Wf db
  sided : TwoSided db

theorem sided_startRun {db : List Host} (h : DbSided db) (vms : List Vm) :
    Sided (startRun db vms) where
  inRun := inRun_startRun h.wf vms
  hosts := fun x hx => h.sided x (List.mem_filter.mp hx).1
  committed := h.sided
  cursor := ⟨0, rfl⟩

/-- The file of a run is in range iff every machine has been numbered so. -/
theorem along_inRoles_iff (db : List Host) (vms : List Vm) :
    InRoles (rollingRestart db vms).config ↔
      Along (total assignNode) (fun s vm => InRoles (assignNode s vm).config) (startRun db vms)
        vms := by
  have hempty : InRoles (startRun db vms).config := fun e he => absurd he List.not_mem_nil
  constructor
  · intro hend
    refine (along_of_foldl (P := fun s : Assignment => InRoles s.config) (fun s vm h => ?_) hend).1
    -- the file only grows
    rcases assignNode_cases s vm with
      ⟨-, heq⟩ | ⟨nodetype, -, -, heq⟩ | ⟨nodetype, -, -, -, -, -, -, hconfig⟩
    · rwa [heq] at h
    · rw [heq] at h
      exact fun e he => h e (List.mem_append_left _ he)
    · rw [hconfig] at h
      exact fun e he => h e (List.mem_append_left _ he)
  · intro halong
    exact foldl_inv_along (I := fun s : Assignment => InRoles s.config) (fun _ _ _ h => h) hempty
      halong

/-- **One run writes numbers of the right ranges iff every machine of it keeps to its
side.** -/
theorem inRoles_run {db : List Host} (h : DbSided db) (vms : List Vm) :
    InRoles (rollingRestart db vms).config ↔ SidesKept db vms := by
  rw [along_inRoles_iff, SidesKept]
  have hempty : InRoles (startRun db vms).config := fun e he => absurd he List.not_mem_nil
  refine along_iff (I := fun s => Sided s ∧ InRoles s.config) ?_ ?_ ⟨sided_startRun h vms, hempty⟩
  · intro s vm _ t hs hroles ht
    obtain rfl := Option.some.inj ht
    exact ⟨hs.1.assignNode hroles, hroles⟩
  · intro s vm _ hs
    rw [inRoles_assignNode hs.1 vm]
    exact and_iff_right hs.2

/-- A run whose numbers are in range leaves such a table to the next. -/
theorem DbSided.nextDb {db : List Host} (h : DbSided db) {vms : List Vm}
    (hroles : InRoles (rollingRestart db vms).config) : DbSided (nextDb db vms) := by
  have hend : Sided (rollingRestart db vms) :=
    foldl_inv_along (fun _ _ hs hrole => hs.assignNode hrole) (sided_startRun h vms)
      ((along_inRoles_iff db vms).mp hroles)
  exact ⟨hend.inRun.committed, hend.committed⟩

/-- **Every run of a history that starts with an empty table writes numbers of the right
ranges iff in every run every machine keeps to its side.** -/
theorem inRoles_iff (runs : List (List Vm)) :
    Along (total nextDb) (fun db vms => InRoles (rollingRestart db vms).config) [] runs ↔
      Along (total nextDb) SidesKept [] runs := by
  refine along_iff (I := DbSided) ?_ ?_ ⟨wf_nil, fun x hx => absurd hx List.not_mem_nil⟩
  · intro db vms _ db' h hroles hnext
    obtain rfl := Option.some.inj hnext
    exact h.nextDb hroles
  · intro db vms _ h
    exact inRoles_run h vms

/-! ### The condition is needed -/

/-- An address that is a data node first, and an SQL node later. -/
def reusedAddress : List (List Vm) := [[node "bk-mysql-data-1" 1], [node "bk-mysql-sql-1" 1]]

/-- The SQL node keeps the number 1 of the data node. -/
theorem sql_node_numbered_one :
    (rollingRestart (nextDb [] [node "bk-mysql-data-1" 1]) [node "bk-mysql-sql-1" 1]).config =
        [⟨.sql, ⟨10, 0, 0, 1⟩, 1⟩] ∧
      ¬ Along (total nextDb) (fun db vms => InRoles (rollingRestart db vms).config) []
        reusedAddress := by
  have hconfig : (rollingRestart (nextDb [] [node "bk-mysql-data-1" 1])
      [node "bk-mysql-sql-1" 1]).config = [⟨.sql, ⟨10, 0, 0, 1⟩, 1⟩] := by decide
  refine ⟨hconfig, fun h => ?_⟩
  rw [reusedAddress, along_total_cons, along_total_cons, hconfig] at h
  obtain ⟨k, hk⟩ := h.2.1 _ (List.mem_singleton_self _) 1 rfl
  omega

end BkPlatform.Mysql
