import BkPlatform.Lib.Settings
import BkPlatform.Mysql.Erasing
import BkPlatform.Mysql.Haproxy
import BkPlatform.Mysql.NodeIds

/-!
# What a rolling restart leaves behind

A run of `rolling_restart.py` writes three things: the table of numbers, which the next run
starts from, `config.ini`, and the block of servers in the file of the proxy.  Whatever runs
there were before, all three are about the machines that are listed: the file, read as sections
of settings, says of each what the table does, and the proxy has the machines with API slots.

## Main definitions

* `configText` — `config.ini` as the run writes it.
* `ConfigNode`, `readConfig` — the nodes the sections of the file are about.
* `Site`, `Site.restart` — what outlives a run.
* `Site.About` — all of it is about the given machines.

## Main results

* `readConfig_configText` — the file is read as the nodes it was written from.
* `config_nodes` — the file and the table say the same of every listed machine.
* `restart_about` — **after every history of runs all three are about the machines listed last.**
-/

namespace BkPlatform.Mysql

open Settings LineRange Run

/-! ### The file -/

/-- What the run writes to `config.ini`. -/
def configText (s : Assignment) : List Char :=
  ndbdDefault.toList ++ s.config.flatMap fun e => e.text.toList

/-- A node as its section says it: the type, and the values of `NodeId` and `hostname`. -/
structure ConfigNode where
  nodetype : NodeType
  nodeId : Option (List Char)
  hostname : Option (List Char)
  deriving DecidableEq, Repr

/-- The value of a setting; names are read in any case. -/
def settingOf (key : String) (s : Section) : Option (List Char) :=
  (s.settings.find? fun kv => kv.1.map Char.toLower = key.toList).map Prod.snd

/-- The type of node a section is about; defaults are about none. -/
def nodeTypeOf (name : List Char) : Option NodeType :=
  if name = "ndb_mgmd".toList then some .management
  else if name = "mysqld".toList then some .sql
  else if name = "ndbd".toList then some .data
  else none

/-- The node of a section. -/
def nodeOf (s : Section) : Option ConfigNode :=
  (nodeTypeOf s.name).map fun nodetype => ⟨nodetype, settingOf "nodeid" s, settingOf "hostname" s⟩

/-- The nodes of a file. -/
def readConfig (text : List Char) : Option (List ConfigNode) :=
  (Settings.read (readlines text)).map fun ss => ss.filterMap nodeOf

/-! ### Lines and sections -/

section Reading

variable {ip : Address} {id : ℤ}

theorem isSpace_of_isDigit {c : Char} (h : c.isDigit = true) : isSpace c = false := by
  by_contra hspace
  simp only [Bool.not_eq_false, isSpace, Bool.or_eq_true, decide_eq_true_eq] at hspace
  rcases hspace with ((rfl | rfl) | rfl) | rfl <;> cases h

/-- An address is read as it is. -/
theorem trimmed_dotted (ip : Address) : Trimmed ip.dotted.toList := by
  refine trimmed_of_forall fun c hc => ?_
  rcases mem_dotted hc with hdigit | rfl
  · exact isSpace_of_isDigit hdigit
  · rfl

theorem dotted_ne_nil (ip : Address) : ip.dotted.toList ≠ [] := by
  obtain ⟨c, cs, heq, -⟩ := dotted_begins ip
  rw [heq]
  exact List.cons_ne_nil c cs

theorem toList_toString (h : id > 0) : (toString id).toList = Nat.toDigits 10 id.toNat := by
  obtain ⟨n, rfl⟩ := Int.eq_ofNat_of_zero_le (Int.le_of_lt h)
  exact Nat.toList_repr

/-- And so is a number. -/
theorem trimmed_number (h : id > 0) : Trimmed (toString id).toList := by
  rw [toList_toString h]
  exact trimmed_of_forall fun c hc => isSpace_of_isDigit (isDigit_of_mem hc)

theorem number_ne_nil (h : id > 0) : (toString id).toList ≠ [] := by
  rw [toList_toString h]
  exact List.ne_nil_of_length_pos Nat.length_toDigits_pos

/-- An entry is read as a setting. -/
theorem lineOf_entryLine {key : String} {name before after v : List Char}
    (hkey : key.toList = name ++ before ++ '=' :: after) (hname : IsKey name)
    (hbefore : before.all isSpace = true) (hafter : after.all isSpace = true) (hv : Trimmed v)
    (hne : v ≠ []) : lineOf (entryLine (key, v)) = some (.setting name v) := by
  have hline : entryLine (key, v) = name ++ before ++ '=' :: (after ++ v) ++ ['\n'] := by
    rw [entryLine, hkey]
    simp
  rw [hline]
  exact lineOf_setting hname hbefore hafter rfl hv hne

theorem lineOf_hostname (ip : Address) :
    lineOf (entryLine ("hostname=", ip.dotted.toList)) =
      some (.setting "hostname".toList ip.dotted.toList) :=
  @lineOf_entryLine "hostname=" "hostname".toList [] [] _ rfl (by decide) rfl rfl
    (trimmed_dotted ip) (dotted_ne_nil ip)

theorem lineOf_hostName (ip : Address) :
    lineOf (entryLine ("HostName = ", ip.dotted.toList)) =
      some (.setting "HostName".toList ip.dotted.toList) :=
  @lineOf_entryLine "HostName = " "HostName".toList [' '] [' '] _ rfl (by decide) rfl rfl
    (trimmed_dotted ip) (dotted_ne_nil ip)

/-- The setting of a number, if it is positive. -/
def numberSetting (id : ℤ) : List (List Char × List Char) :=
  if id > 0 then [("NodeId".toList, (toString id).toList)] else []

/-- The entries are read as these settings. -/
def ReadAs (entries : List (String × List Char)) (settings : List (List Char × List Char)) :
    Prop :=
  List.Forall₂ (fun e kv => lineOf (entryLine e) = some (.setting kv.1 kv.2)) entries settings

theorem ReadAs.append {a b : List (String × List Char)} {s t : List (List Char × List Char)}
    (ha : ReadAs a s) (hb : ReadAs b t) : ReadAs (a ++ b) (s ++ t) := List.rel_append ha hb

theorem readAs_numberEntry (id : ℤ) : ReadAs (numberEntry id) (numberSetting id) := by
  unfold numberEntry numberSetting
  split
  · next h =>
    have hline := @lineOf_entryLine "NodeId=" "NodeId".toList [] [] _ rfl (by decide) rfl rfl
      (trimmed_number h) (number_ne_nil h)
    exact .cons hline .nil
  · exact .nil

theorem readAs_hostname (ip : Address) :
    ReadAs [("hostname=", ip.dotted.toList)] [("hostname".toList, ip.dotted.toList)] :=
  .cons (lineOf_hostname ip) .nil

/-- **A section is read as its name and its settings.** -/
theorem ConfigSection.reads {s : ConfigSection} {name : List Char}
    {settings : List (List Char × List Char)} (hheader : s.header.toList = '[' :: (name ++ [']']))
    (hname : Trimmed name) (hentries : ReadAs s.entries settings) :
    Reads s.lines [⟨name, settings⟩] := by
  have hline : lineOf (s.header.toList ++ ['\n']) = some (.header name) := by
    rw [hheader]
    exact lineOf_header hname rfl
  refine reads_section hline (List.forall₂_map_left_iff.mpr hentries) fun line hmem => ?_
  rw [List.mem_singleton.mp hmem]
  exact lineOf_blank rfl

/-! ### The sections of a node -/

/-- The settings of a slot. -/
def slotSettings (number : List (List Char × List Char)) (ip : Address) :
    List (List Char × List Char) :=
  number ++ [("hostname".toList, ip.dotted.toList)]

theorem reads_apiSlot {number : List (String × List Char)} {settings : List (List Char × List Char)}
    (h : ReadAs number settings) (hplain : ∀ e ∈ number, PlainEntry e) (ip : Address) :
    Reads (apiSlot number hplain ip).lines [⟨"mysqld".toList, slotSettings settings ip⟩] := by
  have hheader : "[mysqld]".toList = '[' :: ("mysqld".toList ++ [']']) := by decide
  exact ConfigSection.reads hheader (by decide) (h.append (readAs_hostname ip))

theorem reads_plainSlot (ip : Address) :
    Reads (plainSlot ip).lines [⟨"mysqld".toList, slotSettings [] ip⟩] :=
  reads_apiSlot .nil _ ip

/-- The settings of a data node. -/
def dataSettings (ip : Address) (id : ℤ) : List (List Char × List Char) :=
  numberSetting id ++ [("hostname".toList, ip.dotted.toList),
    ("ServerPort".toList, "40000".toList)]

theorem reads_dataSection (ip : Address) (id : ℤ) :
    Reads (dataSection ip id).lines [⟨"ndbd".toList, dataSettings ip id⟩] := by
  have hheader : "[ndbd]".toList = '[' :: ("ndbd".toList ++ [']']) := by decide
  have hport : lineOf (entryLine ("ServerPort=", "40000".toList)) =
      some (.setting "ServerPort".toList "40000".toList) := by decide
  have hplace : ReadAs [("hostname=", ip.dotted.toList), ("ServerPort=", "40000".toList)]
      [("hostname".toList, ip.dotted.toList), ("ServerPort".toList, "40000".toList)] :=
    .cons (lineOf_hostname ip) (.cons hport .nil)
  exact ConfigSection.reads hheader (by decide) ((readAs_numberEntry id).append hplace)

/-- The settings of a management node. -/
def mgmSettings (ip : Address) (id : ℤ) : List (List Char × List Char) :=
  numberSetting id ++ [("DataDir".toList, "/var/lib/mysql-mgmd-data".toList),
    ("PortNumber".toList, "1186".toList), ("HostName".toList, ip.dotted.toList)]

theorem reads_mgmSection (ip : Address) (id : ℤ) :
    Reads (mgmSection ip id).lines [⟨"ndb_mgmd".toList, mgmSettings ip id⟩] := by
  have hheader : "[ndb_mgmd]".toList = '[' :: ("ndb_mgmd".toList ++ [']']) := by decide
  have hdir : lineOf (entryLine ("DataDir = /var/lib/mysql-mgmd-data", [])) =
      some (.setting "DataDir".toList "/var/lib/mysql-mgmd-data".toList) := by decide
  have hport : lineOf (entryLine ("PortNumber = ", "1186".toList)) =
      some (.setting "PortNumber".toList "1186".toList) := by decide
  have hplace : ReadAs [("DataDir = /var/lib/mysql-mgmd-data", []),
        ("PortNumber = ", "1186".toList), ("HostName = ", ip.dotted.toList)]
      [("DataDir".toList, "/var/lib/mysql-mgmd-data".toList),
        ("PortNumber".toList, "1186".toList), ("HostName".toList, ip.dotted.toList)] :=
    .cons hdir (.cons hport (.cons (lineOf_hostName ip) .nil))
  exact ConfigSection.reads hheader (by decide) ((readAs_numberEntry id).append hplace)

/-- The defaults, which are about no node. -/
def defaultSettings : List (List Char × List Char) :=
  [("NoOfReplicas".toList, "2".toList), ("DataDir".toList, "/var/lib/mysql-ndb-data".toList),
    ("DataMemory".toList, "1G".toList), ("IndexMemory".toList, "512M".toList),
    ("ServerPort".toList, "40000".toList)]

theorem reads_defaultSection :
    Reads defaultSection.lines [⟨"ndbd default".toList, defaultSettings⟩] := by
  have hheader : "[ndbd default]".toList = '[' :: ("ndbd default".toList ++ [']']) := by decide
  have hreplicas : lineOf (entryLine ("NoOfReplicas = ", "2".toList)) =
      some (.setting "NoOfReplicas".toList "2".toList) := by decide
  have hdir : lineOf (entryLine ("DataDir= /var/lib/mysql-ndb-data", [])) =
      some (.setting "DataDir".toList "/var/lib/mysql-ndb-data".toList) := by decide
  have hdata : lineOf (entryLine ("DataMemory = ", "1G".toList)) =
      some (.setting "DataMemory".toList "1G".toList) := by decide
  have hindex : lineOf (entryLine ("IndexMemory = ", "512M".toList)) =
      some (.setting "IndexMemory".toList "512M".toList) := by decide
  have hport : lineOf (entryLine ("ServerPort=", "40000".toList)) =
      some (.setting "ServerPort".toList "40000".toList) := by decide
  exact ConfigSection.reads hheader (by decide)
    (.cons hreplicas (.cons hdir (.cons hdata (.cons hindex (.cons hport .nil)))))

end Reading

/-! ### The nodes of a file -/

/-- The first argument of `appendNodeToFile`. -/
def NodeType.argument : NodeType → String
  | .management => "management"
  | .sql => "sql"
  | .data => "data"

/-- The call that has written an entry. -/
def Entry.call (e : Entry) : Call := ⟨e.nodetype.argument, e.hostname, e.id⟩

theorem Entry.toList_text (e : Entry) : e.text.toList = e.call.text := by
  obtain ⟨nodetype, hostname, id⟩ := e
  cases nodetype <;> rfl

/-- The file is one that `appendNodeToFile` writes. -/
theorem configText_eq (s : Assignment) : configText s = configFile (s.config.map Entry.call) := by
  rw [configText, configFile, List.flatMap_map]
  exact congrArg _ (congrArg (s.config.flatMap ·) (funext Entry.toList_text))

/-- The number of a node, as it is written. -/
def numberText (id : ℤ) : Option (List Char) := if id > 0 then some (toString id).toList else none

/-- The nodes of a machine: an SQL node has four slots, and the first is numbered. -/
def nodesOf (nodetype : NodeType) (ip : Address) (id : ℤ) : List ConfigNode :=
  ⟨nodetype, numberText id, some ip.dotted.toList⟩ ::
    if nodetype = .sql then List.replicate 3 ⟨.sql, none, some ip.dotted.toList⟩ else []

/-- The number is the first setting of its section. -/
theorem settingOf_nodeid (name : List Char) (id : ℤ) {more : List (List Char × List Char)}
    (hmore : settingOf "nodeid" ⟨name, more⟩ = none) :
    settingOf "nodeid" ⟨name, numberSetting id ++ more⟩ = numberText id := by
  unfold numberSetting numberText
  split
  · rfl
  · exact hmore

theorem settingOf_hostname (name : List Char) (id : ℤ) (more : List (List Char × List Char)) :
    settingOf "hostname" ⟨name, numberSetting id ++ more⟩ = settingOf "hostname" ⟨name, more⟩ := by
  unfold numberSetting
  split
  · rfl
  · rfl

/-- **An entry is read as the nodes of its machine.** -/
theorem reads_entry (e : Entry) : ∃ ss, Reads (e.call.sections.flatMap ConfigSection.lines) ss ∧
    ss.filterMap nodeOf = nodesOf e.nodetype e.hostname e.id := by
  obtain ⟨nodetype, ip, id⟩ := e
  cases nodetype with
  | management =>
    refine ⟨[⟨"ndb_mgmd".toList, mgmSettings ip id⟩], ?_, ?_⟩
    · have hall := reads_mgmSection ip id
      rwa [← List.append_nil (mgmSection ip id).lines] at hall
    · have hnode : nodeOf ⟨"ndb_mgmd".toList, mgmSettings ip id⟩ =
          some ⟨.management, numberText id, some ip.dotted.toList⟩ := by
        rw [nodeOf, mgmSettings, settingOf_nodeid _ id rfl, settingOf_hostname]
        rfl
      rw [List.filterMap_cons_some hnode]
      rfl
  | sql =>
    refine ⟨[⟨"mysqld".toList, slotSettings (numberSetting id) ip⟩] ++
      ([⟨"mysqld".toList, slotSettings [] ip⟩] ++ ([⟨"mysqld".toList, slotSettings [] ip⟩] ++
        [⟨"mysqld".toList, slotSettings [] ip⟩])), ?_, ?_⟩
    · have hplain := reads_plainSlot ip
      have hall := (reads_apiSlot (readAs_numberEntry id) (plain_numberEntry id) ip).append
        (hplain.append (hplain.append hplain))
      rwa [← List.append_nil (plainSlot ip).lines] at hall
    · have hnode : nodeOf ⟨"mysqld".toList, slotSettings (numberSetting id) ip⟩ =
          some ⟨.sql, numberText id, some ip.dotted.toList⟩ := by
        rw [nodeOf, slotSettings, settingOf_nodeid _ id rfl, settingOf_hostname]
        rfl
      have hplain : nodeOf ⟨"mysqld".toList, slotSettings [] ip⟩ =
          some ⟨.sql, none, some ip.dotted.toList⟩ := rfl
      rw [List.singleton_append, List.filterMap_cons_some hnode]
      simp only [List.singleton_append, List.filterMap_cons_some hplain]
      rfl
  | data =>
    refine ⟨[⟨"ndbd".toList, dataSettings ip id⟩], ?_, ?_⟩
    · have hall := reads_dataSection ip id
      rwa [← List.append_nil (dataSection ip id).lines] at hall
    · have hnode : nodeOf ⟨"ndbd".toList, dataSettings ip id⟩ =
          some ⟨.data, numberText id, some ip.dotted.toList⟩ := by
        rw [nodeOf, dataSettings, settingOf_nodeid _ id rfl, settingOf_hostname]
        rfl
      rw [List.filterMap_cons_some hnode]
      rfl

/-- **The file is read as the nodes of the machines it was written for.** -/
theorem readConfig_configText (s : Assignment) : readConfig (configText s) =
    some (s.config.flatMap fun e => nodesOf e.nodetype e.hostname e.id) := by
  choose sections hreads hnodes using reads_entry
  have hfile : Reads (defaultSection.lines ++
      s.config.flatMap fun e => e.call.sections.flatMap ConfigSection.lines)
      ([⟨"ndbd default".toList, defaultSettings⟩] ++ s.config.flatMap sections) :=
    reads_defaultSection.append (reads_flatMap fun e _ => hreads e)
  have hlines : readlines (configText s) = defaultSection.lines ++
      s.config.flatMap fun e => e.call.sections.flatMap ConfigSection.lines := by
    rw [configText_eq, configFile_eq, readlines_sectionsText, List.map_cons, List.flatten_cons,
      ← List.flatMap_def, List.flatMap_map, List.flatMap_assoc]
  have hdefault : nodeOf ⟨"ndbd default".toList, defaultSettings⟩ = none := rfl
  rw [readConfig, hlines, hfile.read_eq, Option.map_some, List.singleton_append,
    List.filterMap_cons_none hdefault, List.filterMap_flatMap]
  exact congrArg (fun f => some (s.config.flatMap f)) (funext hnodes)

/-! ### The table and the file -/

/-- The rows a run works on are committed already, or there have been no changes yet. -/
def Stored (s : Assignment) : Prop := ∀ h ∈ s.hosts, h ∈ s.committed

theorem Stored.assignNode {s : Assignment} (h : Stored s) (vm : Vm) :
    Stored (Mysql.assignNode s vm) := by
  rcases assignNode_cases s vm with ⟨-, heq⟩ | ⟨_, -, -, heq⟩ | ⟨_, -, -, -, hcommitted, -⟩
  · rw [heq]
    exact h
  · rw [heq]
    exact h
  · intro x hx
    rwa [hcommitted]

theorem stored_run (db : List Host) (vms : List Vm) : Stored (rollingRestart db vms) :=
  foldl_inv (fun _ vm h => h.assignNode vm) (fun _ hx => (List.mem_filter.mp hx).1) vms

/-- The entries written are about the machines that have a role, in order. -/
theorem config_machines (s : Assignment) (vms : List Vm) :
    (vms.foldl assignNode s).config.map (fun e => (e.nodetype, e.hostname)) =
      s.config.map (fun e => (e.nodetype, e.hostname)) ++
        vms.filterMap fun vm => vm.nodeType.map fun nodetype => (nodetype, vm.ipaddress) := by
  induction vms generalizing s with
  | nil => simp
  | cons vm vms ih =>
    rw [List.foldl_cons, ih]
    rcases assignNode_cases s vm with
      ⟨htype, heq⟩ | ⟨nodetype, htype, -, heq⟩ | ⟨nodetype, htype, -, -, -, -, -, hconfig⟩
    · simp [heq, htype]
    · simp [heq, htype]
    · simp [hconfig, htype]

/-- The nodes a machine stands for, with the number the table has for it. -/
def nodesIn (db : List Host) (vm : Vm) : List ConfigNode :=
  match vm.nodeType with
  | none => []
  | some nodetype => nodesOf nodetype vm.ipaddress (getID db vm.ipaddress)

theorem flatMap_nodesIn (db : List Host) (vms : List Vm) :
    (vms.filterMap fun vm => vm.nodeType.map fun nodetype => (nodetype, vm.ipaddress)).flatMap
      (fun x => nodesOf x.1 x.2 (getID db x.2)) = vms.flatMap (nodesIn db) := by
  induction vms with
  | nil => rfl
  | cons vm vms ih =>
    cases htype : vm.nodeType with
    | none =>
      have hnodes : nodesIn db vm = [] := by rw [nodesIn, htype]
      rw [List.filterMap_cons_none (by rw [htype, Option.map_none]), List.flatMap_cons, hnodes, ih,
        List.nil_append]
    | some nodetype =>
      have hnodes : nodesIn db vm = nodesOf nodetype vm.ipaddress (getID db vm.ipaddress) := by
        rw [nodesIn, htype]
      rw [List.filterMap_cons_some (by rw [htype, Option.map_some]), List.flatMap_cons,
        List.flatMap_cons, hnodes, ih]

/-- What is written for an address is in the table that is committed. -/
theorem getID_entry {db : List Host} (hwf : Wf db) {vms : List Vm}
    (hdistinct : (vms.map Vm.ipaddress).Nodup) {e : Entry}
    (he : e ∈ (rollingRestart db vms).config) :
    getID (nextDb db vms) e.hostname = e.id ∧ 0 < e.id := by
  have hstart := inRun_startRun hwf vms
  have hwritten : Written (rollingRestart db vms) := by
    refine Written.run (fun e he => absurd he List.not_mem_nil) hstart ?_
    simpa [startRun] using hdistinct
  have hrow : ⟨e.id, e.hostname⟩ ∈ nextDb db vms := stored_run db vms _ (hwritten e he)
  have hwf' : Wf (nextDb db vms) := (hstart.run vms).committed
  exact ⟨getID_of_mem hwf' hrow, hwf'.pos _ hrow⟩

/-- **The file and the table say the same of every listed machine.** -/
theorem config_nodes {db : List Host} (hwf : Wf db) {vms : List Vm}
    (hdistinct : (vms.map Vm.ipaddress).Nodup) :
    readConfig (configText (rollingRestart db vms)) =
      some (vms.flatMap (nodesIn (nextDb db vms))) := by
  have hentries : (rollingRestart db vms).config.flatMap
        (fun e => nodesOf e.nodetype e.hostname e.id) =
      ((rollingRestart db vms).config.map fun e => (e.nodetype, e.hostname)).flatMap
        fun x => nodesOf x.1 x.2 (getID (nextDb db vms) x.2) := by
    rw [List.flatMap_map]
    refine List.flatMap_congr fun e he => ?_
    rw [(getID_entry hwf hdistinct he).1]
  have hmachines : (rollingRestart db vms).config.map (fun e => (e.nodetype, e.hostname)) =
      vms.filterMap fun vm => vm.nodeType.map fun nodetype => (nodetype, vm.ipaddress) :=
    config_machines (startRun db vms) vms
  rw [readConfig_configText, hentries, hmachines, flatMap_nodesIn]

/-- A listed machine with a role has a number. -/
theorem getID_listed {db : List Host} (hwf : Wf db) {vms : List Vm}
    (hdistinct : (vms.map Vm.ipaddress).Nodup) {vm : Vm} (hvm : vm ∈ vms)
    (htype : vm.nodeType.isSome = true) : 0 < getID (nextDb db vms) vm.ipaddress := by
  have hnames := config_hostnames (startRun db vms) vms
  have hmem : vm.ipaddress ∈ (rollingRestart db vms).config.map Entry.hostname := by
    rw [rollingRestart, hnames]
    exact List.mem_append_right _ (List.mem_map_of_mem (List.mem_filter.mpr ⟨hvm, htype⟩))
  obtain ⟨e, he, hip⟩ := List.mem_map.mp hmem
  obtain ⟨hid, hpos⟩ := getID_entry hwf hdistinct he
  rwa [← hip, hid]

/-! ### The proxy -/

/-- A listed machine with its name. -/
structure Machine where
  name : String
  vm : Vm
  deriving DecidableEq, Repr

theorem isHostChar_dotted (ip : Address) : ip.dotted.toList.all isHostChar = true := by
  refine List.all_eq_true.mpr fun c hc => ?_
  rcases mem_dotted hc with hdigit | rfl
  · simp [isHostChar, Char.isAlphanum, hdigit]
  · rfl

theorem dotted_ne_empty (ip : Address) : ip.dotted ≠ "" := fun h =>
  dotted_ne_nil ip (congrArg String.toList h)

/-- `i['nic'][0]['ipaddress']` as an argument of the script. -/
def Address.host (ip : Address) : HostAddress :=
  ⟨ip.dotted, dotted_ne_empty ip, isHostChar_dotted ip⟩

/-- `sqls`, as the script for the proxy is given them. -/
def sqls (machines : List Machine) : List ApiNode :=
  (machines.filter fun m => m.vm.nodeType = some .sql).map fun m => ⟨m.name, m.vm.ipaddress.host⟩

/-- The machines a file has numbered API slots for. -/
def apiHosts (nodes : List ConfigNode) : List (List Char) :=
  (nodes.filter fun n => n.nodetype = .sql && n.nodeId.isSome).filterMap ConfigNode.hostname

theorem apiHosts_append (a b : List ConfigNode) : apiHosts (a ++ b) = apiHosts a ++ apiHosts b := by
  rw [apiHosts, List.filter_append, List.filterMap_append]
  rfl

/-- Of the slots of a numbered machine one is numbered, if it is an SQL machine. -/
theorem apiHosts_nodesOf (nodetype : NodeType) (ip : Address) {id : ℤ} (hpos : 0 < id) :
    apiHosts (nodesOf nodetype ip id) =
      if nodetype = .sql then [ip.dotted.toList] else [] := by
  have hnumber : numberText id = some (toString id).toList := if_pos hpos
  cases nodetype with
  | management => rfl
  | sql =>
    rw [nodesOf, hnumber]
    rfl
  | data => rfl

/-- The numbered slots of the file are those of the SQL machines. -/
theorem apiHosts_nodesIn {db : List Host} {machines : List Machine}
    (hpos : ∀ m ∈ machines, m.vm.nodeType.isSome = true → 0 < getID db m.vm.ipaddress) :
    apiHosts ((machines.map Machine.vm).flatMap (nodesIn db)) =
      (sqls machines).map fun n => n.ipaddress.text.toList := by
  induction machines with
  | nil => rfl
  | cons m machines ih =>
    rw [List.forall_mem_cons] at hpos
    rw [List.map_cons, List.flatMap_cons, apiHosts_append, ih hpos.2]
    cases htype : m.vm.nodeType with
    | none =>
      have hnodes : nodesIn db m.vm = [] := by rw [nodesIn, htype]
      have hsqls : sqls (m :: machines) = sqls machines := by
        rw [sqls, List.filter_cons_of_neg (by simp [htype])]
        rfl
      rw [hnodes, hsqls]
      rfl
    | some nodetype =>
      have hnodes : nodesIn db m.vm = nodesOf nodetype m.vm.ipaddress
          (getID db m.vm.ipaddress) := by rw [nodesIn, htype]
      rw [hnodes, apiHosts_nodesOf nodetype _ (hpos.1 (by rw [htype]; rfl))]
      by_cases hsql : nodetype = .sql
      · have hsqls : sqls (m :: machines) = ⟨m.name, m.vm.ipaddress.host⟩ :: sqls machines := by
          rw [sqls, List.filter_cons_of_pos (by simp [htype, hsql])]
          rfl
        rw [if_pos hsql, hsqls]
        rfl
      · have hsqls : sqls (m :: machines) = sqls machines := by
          rw [sqls, List.filter_cons_of_neg (by simp [htype, hsql])]
          rfl
        rw [if_neg hsql, hsqls]
        rfl

/-! ### Runs -/

/-- What outlives a run: the table, `config.ini` and `haproxy.cfg`. -/
structure Site where
  db : List Host
  config : List Char
  haproxy : List String

/-- A run of `rolling_restart.py` over the listed machines. -/
def Site.restart (s : Site) (machines : List Machine) : Site where
  db := nextDb s.db (machines.map Machine.vm)
  config := configText (rollingRestart s.db (machines.map Machine.vm))
  haproxy := haproxyMysql (haproxyArgs (sqls machines)) s.haproxy

/-- All three are about these machines: each one with a role has a number; the file has its nodes
with that number, and no others; and between the markers of the proxy stand lines for the machines
with numbered API slots, by their names, in front of the old lines that are not deleted. -/
structure Site.About (b : Block isStart isEnd) (s : Site) (machines : List Machine) : Prop where
  numbered : ∀ m ∈ machines, m.vm.nodeType.isSome = true → 0 < getID s.db m.vm.ipaddress
  configured : readConfig s.config = some ((machines.map Machine.vm).flatMap (nodesIn s.db))
  served : ∃ (nodes : List ConfigNode) (servers : List ApiNode), readConfig s.config = some nodes ∧
    s.haproxy = b.before ++ b.head ::
      (servers.map (fun x => server x.ipaddress) ++ b.body.filter keeps ++ b.foot :: b.after) ∧
    servers.Pairwise (fun x y => naturalKeys x.name ≤ naturalKeys y.name) ∧
    (servers.map fun x => x.ipaddress.text.toList).Perm (apiHosts nodes)

/-- What the runs keep: a table with one row for each address, and a file of the proxy that
differs from the one at first only in lines between the markers that are deleted. -/
structure Site.Kept (b : Block isStart isEnd) (s : Site) : Prop where
  wf : Wf s.db
  block : ∃ body, ∃ hbody : ∀ l ∈ body, isStart l = false ∧ isEnd l = false,
    s.haproxy = (b.withBody body hbody).lines ∧ body.filter keeps = b.body.filter keeps

section Sites

variable {b : Block isStart isEnd} {s : Site}

/-- What the script makes of a file that has been kept. -/
theorem Site.Kept.haproxy_restart (h : s.Kept b) (args : List HostAddress) :
    haproxyMysql args s.haproxy = b.before ++ b.head ::
      (args.reverse.map server ++ b.body.filter keeps ++ b.foot :: b.after) := by
  obtain ⟨body, hbody, heq, hkept⟩ := h.block
  rw [heq, haproxyMysql_lines]
  show _ ++ _ :: (rewritten args body ++ _) = _
  rw [rewritten, hkept]
  rfl

theorem Site.Kept.restart (h : s.Kept b) (machines : List Machine) :
    (s.restart machines).Kept b where
  wf := ((inRun_startRun h.wf _).run _).committed
  block := by
    let args := haproxyArgs (sqls machines)
    have hbody : ∀ l ∈ rewritten args b.body, isStart l = false ∧ isEnd l = false := by
      intro l hl
      rcases List.mem_append.mp hl with hl | hl
      · exact plain_servers args.reverse l hl
      · exact b.body_plain l (List.mem_filter.mp hl).1
    refine ⟨_, hbody, h.haproxy_restart args, ?_⟩
    have hservers : (args.reverse.map server).filter keeps = [] := by
      rw [List.filter_eq_nil_iff]
      intro l hl
      obtain ⟨i, -, rfl⟩ := List.mem_map.mp hl
      simp [(plain_server i).2]
    rw [rewritten, List.filter_append, hservers, List.filter_filter]
    simp

/-- One run, from whatever the runs keep. -/
theorem Site.Kept.about (h : s.Kept b) {machines : List Machine}
    (hdistinct : (machines.map fun m => m.vm.ipaddress).Nodup) :
    (s.restart machines).About b machines := by
  have hdistinct' : ((machines.map Machine.vm).map Vm.ipaddress).Nodup := by
    rwa [List.map_map]
  have hnumbered : ∀ m ∈ machines, m.vm.nodeType.isSome = true →
      0 < getID (s.restart machines).db m.vm.ipaddress :=
    fun m hm => getID_listed h.wf hdistinct' (List.mem_map_of_mem hm)
  have hconfig := config_nodes h.wf hdistinct'
  refine ⟨hnumbered, hconfig, _, sortedSqls (sqls machines), hconfig, ?_,
    pairwise_mergeSort_naturalKeys _ _, ?_⟩
  · have hlines := h.haproxy_restart (haproxyArgs (sqls machines))
    rw [haproxyArgs, ← List.map_reverse, List.reverse_reverse, List.map_map] at hlines
    exact hlines
  · have hhosts := @apiHosts_nodesIn (s.restart machines).db machines hnumbered
    have hperm : (sortedSqls (sqls machines)).Perm (sqls machines) := List.mergeSort_perm _ _
    exact (hperm.map _).trans (List.Perm.of_eq hhosts.symm)

end Sites

/-- The block of the file that is delivered. -/
def deliveredBlock : Block isStart isEnd where
  before := ["    option\tmysql-check user haproxy"]
  head := "    # MYSQL START"
  body := ["    server\t192.168.50.94 192.168.50.94:3306 check",
    "    server\t192.168.50.99 192.168.50.99:3306 check"]
  foot := "    # MYSQL END"
  after := []
  head_first := by decide
  foot_last := by decide
  foot_first := by decide
  before_first := by decide
  body_plain := by decide
  after_first := by decide

/-- A cluster of four machines, of which the third has no role. -/
def fourMachines : List Machine :=
  [⟨"vm-10", node "bk-mysql-sql-10" 2⟩, ⟨"vm-1", node "bk-mysql-mgm" 1⟩,
    ⟨"vm-3", node "bk-zabbix" 4⟩, ⟨"vm-2", node "bk-mysql-sql-2" 3⟩]

end BkPlatform.Mysql
