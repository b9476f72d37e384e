import BkPlatform.Lib.Probe
import Mathlib.Data.List.Infix

/-!
# The hosts table of the management node

`rolling_restart.py` numbers the nodes of a cluster.  The numbers are kept in a
table of addresses that outlives a run; a run purges the addresses that are no
longer listed and then goes through the listed machines: a machine whose number
suits its role keeps it, any other one is given a new number.

New numbers come from two searches with a cursor each.  The one for data and
management nodes counts up from 1 and stops at 49 whether or not 49 is taken;
the one for SQL nodes counts up from 49 in steps of 4, since every SQL node is
given four API slots.

## Main definitions

* `Host`, `getID`, `updateID` — the table.
* `NodeType`, `nodeType` — the role a display name says.
* `Assignment`, `requestID`, `assignNode`, `rollingRestart` — one run.
* `sqlToString`, `dataToString`, `mgmToString` — the sections of `config.ini`.

## Main results

* `mem_updateID` — what the table holds after an update.
* `requestID_sql_fresh`, `requestID_cases` — what the searches find.
-/

namespace BkPlatform.Mysql

open Probe

/-! ### The table -/

/-- An IPv4 address.  `like '%s'` compares addresses as they are: they hold none of
its wildcards. -/
structure Address where
  a : Fin 256
  b : Fin 256
  c : Fin 256
  d : Fin 256
  deriving DecidableEq, Repr

/-- The address in dotted form. -/
def Address.dotted (ip : Address) : String :=
  toString ip.a ++ "." ++ toString ip.b ++ "." ++ toString ip.c ++ "." ++ toString ip.d

/-- A row of `hosts`. -/
structure Host where
  id : ℤ
  ipaddress : Address
  deriving DecidableEq, Repr

/-- `getID`: the number of an address, or -1. -/
def getID (hosts : List Host) (ipaddress : Address) : ℤ :=
  match hosts.find? fun h => h.ipaddress = ipaddress with
  | some h => h.id
  | none => -1

/-- `updateID`, before its commit. -/
def updateID (hosts : List Host) (ipaddress : Address) (id : ℤ) : List Host :=
  if getID hosts ipaddress > 0 then
    hosts.map fun h => if h.ipaddress = ipaddress then { h with id := id } else h
  else
    hosts ++ [⟨id, ipaddress⟩]

/-- `delete from hosts where ipaddress not in (…)`. -/
def purge (hosts : List Host) (listed : List Address) : List Host :=
  hosts.filter fun h => h.ipaddress ∈ listed

/-- The numbers in use. -/
def ids (hosts : List Host) : List ℤ := hosts.map Host.id

/-! ### Roles -/

/-- What a node is. -/
inductive NodeType
  | management
  | sql
  | data
  deriving DecidableEq, Repr

/-- A listed virtual machine. -/
structure Vm where
  displayname : String
  ipaddress : Address
  deriving DecidableEq, Repr

/-- `s in text`. -/
def contains (text s : String) : Bool := s.toList <:+: text.toList

/-- The first of the three names the display name contains. -/
def Vm.nodeType (vm : Vm) : Option NodeType :=
  if contains vm.displayname "mysql-mgm" then some .management
  else if contains vm.displayname "mysql-sql" then some .sql
  else if contains vm.displayname "mysql-data" then some .data
  else none

/-- The number a node of this type goes on with. -/
def NodeType.keeps : NodeType → ℤ → Bool
  | .management, id => id > 0
  | .sql, id => !(id ≤ 0)
  | .data, id => 0 < id && id < 49

/-! ### The configuration file -/

/-- A call of `appendNodeToFile`. -/
structure Entry where
  nodetype : NodeType
  hostname : Address
  id : ℤ
  deriving DecidableEq, Repr

/-- A plain API section. -/
def apiSection (hostname : String) : String := "[mysqld]\nhostname=" ++ hostname ++ "\n\n"

/-- `SQLToString`: four API slots, the first of them numbered. -/
def sqlToString (hostname : String) (id : ℤ) : String :=
  if id > 0 then
    "[mysqld]\nNodeId=" ++ toString id ++ "\nhostname=" ++ hostname ++ "\n\n" ++
      apiSection hostname ++ apiSection hostname ++ apiSection hostname
  else
    apiSection hostname ++ apiSection hostname ++ apiSection hostname ++ apiSection hostname

/-- `DataToString`. -/
def dataToString (hostname : String) (id : ℤ) : String :=
  if id > 0 then
    "[ndbd]\nNodeId=" ++ toString id ++ "\nhostname=" ++ hostname ++ "\nServerPort=40000\n\n"
  else
    "[ndbd]\nhostname=" ++ hostname ++ "\nServerPort=40000\n\n"

/-- `MGMToString`. -/
def mgmToString (hostname : String) (id : ℤ) : String :=
  if id > 0 then
    "[ndb_mgmd]\nNodeId=" ++ toString id ++
      "\nDataDir = /var/lib/mysql-mgmd-data\nPortNumber = 1186\nHostName = " ++ hostname ++ "\n\n"
  else
    "[ndb_mgmd]\nDataDir = /var/lib/mysql-mgmd-data\nPortNumber = 1186\nHostName = " ++
      hostname ++ "\n\n"

/-- What `appendNodeToFile` appends. -/
def Entry.text (e : Entry) : String :=
  match e.nodetype with
  | .sql => sqlToString e.hostname.dotted e.id
  | .data => dataToString e.hostname.dotted e.id
  | .management => mgmToString e.hostname.dotted e.id

/-- The `NodeId` an entry writes. -/
def Entry.nodeId (e : Entry) : Option ℤ := if e.id > 0 then some e.id else none

/-! ### One run -/

/-- The state of a run: the table as the run sees it and as it was last committed, the
cursors of the two searches, and what has been written. -/
structure Assignment where
  hosts : List Host
  committed : List Host
  requestTmp : ℤ := -1
  requestTmpSql : ℤ := -1
  config : List Entry := []
  deriving DecidableEq, Repr

/-- `requestID`: the number found and the state with the cursor moved. -/
def requestID (s : Assignment) (nodetype : NodeType) : ℤ × Assignment :=
  let rs := ids s.hosts
  match nodetype with
  | .sql =>
    let i := probe (fun i => i ∈ rs) 4 rs.length (49 + s.requestTmpSql + 1)
    (i, { s with requestTmpSql := i - 49 + 3 })
  | _ =>
    let start := 1 + s.requestTmp + 1
    let i := probe (fun i => i ∈ rs && i < 49) 1 (49 - start).toNat start
    (i, { s with requestTmp := i - 1 })

/-- One pass of the loop over the listed machines. -/
def assignNode (s : Assignment) (vm : Vm) : Assignment :=
  let id := getID s.hosts vm.ipaddress
  match vm.nodeType with
  | none => s
  | some nodetype =>
    if nodetype.keeps id then
      { s with config := s.config ++ [⟨nodetype, vm.ipaddress, id⟩] }
    else
      let (id, s) := requestID s nodetype
      let hosts := updateID s.hosts vm.ipaddress id
      { s with hosts := hosts, committed := hosts,
               config := s.config ++ [⟨nodetype, vm.ipaddress, id⟩] }

/-- The state after the purge, which is not committed by itself. -/
def startRun (db : List Host) (vms : List Vm) : Assignment where
  hosts := purge db (vms.map Vm.ipaddress)
  committed := db

/-- The whole run. -/
def rollingRestart (db : List Host) (vms : List Vm) : Assignment :=
  vms.foldl assignNode (startRun db vms)

/-- The table the next run finds. -/
def nextDb (db : List Host) (vms : List Vm) : List Host := (rollingRestart db vms).committed

/-! ### What the table holds -/

/-- One row for each address, and only positive numbers: this holds however the
numbers are chosen. -/
structure Wf (hosts : List Host) : Prop where
  nodup : (hosts.map Host.ipaddress).Nodup
  pos : ∀ h ∈ hosts, 0 < h.id

theorem wf_nil : Wf [] := ⟨List.nodup_nil, fun _ hh => absurd hh List.not_mem_nil⟩

theorem Wf.filter {hosts : List Host} (h : Wf hosts) (p : Host → Bool) : Wf (hosts.filter p) where
  nodup := h.nodup.sublist (List.filter_sublist.map _)
  pos := fun x hx => h.pos x (List.mem_filter.mp hx).1

/-- The number of a row is what `getID` returns for its address. -/
theorem getID_of_mem {hosts : List Host} (hwf : Wf hosts) {h : Host} (hh : h ∈ hosts) :
    getID hosts h.ipaddress = h.id := by
  cases hfind : hosts.find? fun x => x.ipaddress = h.ipaddress with
  | none =>
    have hne := List.find?_eq_none.mp hfind h hh
    simp at hne
  | some x =>
    have haddr : x.ipaddress = h.ipaddress := by simpa using List.find?_some hfind
    have hx : x = h := List.inj_on_of_nodup_map hwf.nodup (List.mem_of_find?_eq_some hfind) hh haddr
    simp [getID, hfind, hx]

/-- An address with a number has a row with that number. -/
theorem mem_of_getID_pos {hosts : List Host} {ip : Address} (h : 0 < getID hosts ip) :
    ⟨getID hosts ip, ip⟩ ∈ hosts := by
  cases hfind : hosts.find? fun x => x.ipaddress = ip with
  | none => simp [getID, hfind] at h
  | some x =>
    have haddr : x.ipaddress = ip := by simpa using List.find?_some hfind
    have hid : getID hosts ip = x.id := by simp [getID, hfind]
    rw [hid, ← haddr]
    exact List.mem_of_find?_eq_some hfind

/-- An address without a number has no row. -/
theorem not_mem_of_getID {hosts : List Host} (hwf : Wf hosts) {ip : Address}
    (h : ¬ 0 < getID hosts ip) {x : Host} (hx : x ∈ hosts) : x.ipaddress ≠ ip := by
  rintro rfl
  rw [getID_of_mem hwf hx] at h
  exact h (hwf.pos x hx)

/-- **What the table holds after an update**: the address with its new number, and the
rows of the other addresses. -/
theorem mem_updateID {hosts : List Host} (hwf : Wf hosts) {ip : Address} {id : ℤ} {x : Host} :
    x ∈ updateID hosts ip id ↔ x = ⟨id, ip⟩ ∨ (x ∈ hosts ∧ x.ipaddress ≠ ip) := by
  unfold updateID
  by_cases hpos : getID hosts ip > 0
  · rw [if_pos hpos, List.mem_map]
    constructor
    · rintro ⟨y, hy, rfl⟩
      by_cases hip : y.ipaddress = ip
      · left
        simp [← hip]
      · right
        rw [if_neg hip]
        exact ⟨hy, hip⟩
    · rintro (rfl | ⟨hx, hip⟩)
      · exact ⟨_, mem_of_getID_pos hpos, by simp⟩
      · exact ⟨x, hx, by rw [if_neg hip]⟩
  · rw [if_neg hpos, List.mem_append, List.mem_singleton]
    constructor
    · rintro (hx | rfl)
      · exact Or.inr ⟨hx, not_mem_of_getID hwf hpos hx⟩
      · exact Or.inl rfl
    · rintro (rfl | ⟨hx, -⟩)
      · exact Or.inr rfl
      · exact Or.inl hx

/-- An update keeps one row for each address. -/
theorem Wf.updateID {hosts : List Host} (hwf : Wf hosts) (ip : Address) {id : ℤ} (hid : 0 < id) :
    Wf (updateID hosts ip id) where
  nodup := by
    unfold Mysql.updateID
    by_cases hpos : getID hosts ip > 0
    · rw [if_pos hpos, List.map_map]
      have hsame : Host.ipaddress ∘ (fun h => if h.ipaddress = ip then { h with id := id } else h) =
          Host.ipaddress := by
        funext h
        by_cases hip : h.ipaddress = ip <;> simp [hip]
      rw [hsame]
      exact hwf.nodup
    · rw [if_neg hpos, List.map_append, List.nodup_append]
      refine ⟨hwf.nodup, List.nodup_singleton _, ?_⟩
      intro a ha b hb
      obtain ⟨h, hh, rfl⟩ := List.mem_map.mp ha
      obtain rfl := List.mem_singleton.mp hb
      exact not_mem_of_getID hwf hpos hh
  pos := by
    intro x hx
    rcases (mem_updateID hwf).mp hx with rfl | ⟨hx, -⟩
    · exact hid
    · exact hwf.pos x hx

/-! ### What the searches find -/

/-- The number an SQL node is given is not in use. -/
theorem requestID_sql_fresh (s : Assignment) : (requestID s .sql).1 ∉ ids s.hosts :=
  probe_not_mem _ (by decide) _

/-- The start of the next search for a data or management node. -/
def Assignment.nextStart (s : Assignment) : ℤ := 1 + s.requestTmp + 1

/-- Every number from the cursor up to 48 is in use. -/
def Assignment.exhausted (s : Assignment) : Prop :=
  ∀ i, s.nextStart ≤ i → i < 49 → i ∈ ids s.hosts

/-- The numbers a search for a data or management node passes: it goes on from the
cursor, and past numbers in use below 49 only. -/
theorem requestID_walk (s : Assignment) {nodetype : NodeType} (ht : nodetype ≠ .sql) :
    s.nextStart ≤ (requestID s nodetype).1 ∧
    (∀ i, s.nextStart ≤ i → i < (requestID s nodetype).1 → i ∈ ids s.hosts ∧ i < 49) ∧
    ((requestID s nodetype).1 < 49 → (requestID s nodetype).1 ∉ ids s.hosts) := by
  let taken : ℤ → Bool := fun i => i ∈ ids s.hosts && i < 49
  -- both roles search in the same way
  have hid : (requestID s nodetype).1 =
      probe taken 1 (49 - s.nextStart).toNat s.nextStart := by
    cases nodetype with
    | sql => exact absurd rfl ht
    | management => rfl
    | data => rfl
  rw [hid]
  -- the distance to 49 bounds the search
  have hstop : taken (probe taken 1 (49 - s.nextStart).toNat s.nextStart) = false := by
    refine probe_stops (fun i => (49 - i).toNat) (fun i hi => ?_) (Nat.le_refl _)
    have hlt : i < 49 := by simpa using (Bool.and_eq_true_iff.mp hi).2
    omega
  obtain ⟨k, hk, hpassed⟩ :=
    probe_walk taken 1 (49 - s.nextStart).toNat s.nextStart
  rw [hk, mul_one] at hstop ⊢
  refine ⟨by omega, fun i hstart hi => ?_, fun hlt hmem => ?_⟩
  · have hj : taken (s.nextStart + (i - s.nextStart).toNat * 1) = true := hpassed _ (by omega)
    have hback : s.nextStart + ((i - s.nextStart).toNat : ℤ) * 1 = i := by omega
    rw [hback] at hj
    simpa [taken] using hj
  · simp [taken, hmem, hlt] at hstop

/-- **What a data or management node is given**: a number that is not in use or, if all
up to 48 are, the first one from 49 on that the cursor has not passed. -/
theorem requestID_cases (s : Assignment) {nodetype : NodeType} (ht : nodetype ≠ .sql) :
    ((requestID s nodetype).1 ∉ ids s.hosts ∧ ¬ s.exhausted) ∨
      (s.exhausted ∧ (requestID s nodetype).1 = max s.nextStart 49) := by
  obtain ⟨hup, hpassed, hfree⟩ := requestID_walk s ht
  by_cases hlt : (requestID s nodetype).1 < 49
  · left
    exact ⟨hfree hlt, fun hexhausted => hfree hlt (hexhausted _ hup hlt)⟩
  · right
    refine ⟨fun i hstart hi => (hpassed i hstart (by omega)).1, ?_⟩
    by_contra hne
    rcases Int.lt_or_le s.nextStart 49 with hstart | hstart
    · have hlast := (hpassed 49 (by omega) (by omega)).2
      omega
    · -- nothing from 49 on is passed, so the search has not moved
      have hlast := (hpassed s.nextStart (Int.le_refl _) (by omega)).2
      omega

/-- The cursors start at their ends and move up. -/
structure Assignment.CursorsOk (s : Assignment) : Prop where
  tmp : -1 ≤ s.requestTmp
  tmpSql : -1 ≤ s.requestTmpSql

/-- A new number is positive, and the cursor it was found with has moved past it. -/
theorem requestID_pos {s : Assignment} (h : s.CursorsOk) (nodetype : NodeType) :
    0 < (requestID s nodetype).1 ∧ (requestID s nodetype).2.CursorsOk := by
  have htmp := h.tmp
  have hsql := h.tmpSql
  have hup : ∀ taken : ℤ → Bool, 1 + s.requestTmp + 1 ≤
      probe taken 1 (49 - (1 + s.requestTmp + 1)).toNat (1 + s.requestTmp + 1) :=
    fun taken => le_probe (by decide) _ _
  have hupSql : 49 + s.requestTmpSql + 1 ≤
      probe (fun i => i ∈ ids s.hosts) 4 (ids s.hosts).length (49 + s.requestTmpSql + 1) :=
    le_probe (by decide) _ _
  have hdata := hup fun i => i ∈ ids s.hosts && i < 49
  cases nodetype with
  | sql => exact ⟨by simp only [requestID]; omega, htmp, by simp only [requestID]; omega⟩
  | management => exact ⟨by simp only [requestID]; omega, by simp only [requestID]; omega, hsql⟩
  | data => exact ⟨by simp only [requestID]; omega, by simp only [requestID]; omega, hsql⟩

/-- A search leaves the tables and the file alone. -/
theorem requestID_state (s : Assignment) (nodetype : NodeType) :
    (requestID s nodetype).2.hosts = s.hosts ∧ (requestID s nodetype).2.config = s.config := by
  cases nodetype <;> exact ⟨rfl, rfl⟩

end BkPlatform.Mysql
