import BkPlatform.Lib.Run
import BkPlatform.Mysql.ConfigFile
import BkPlatform.Mysql.Suggestion

/-!
# The report of the management node

`zabbix_sender.py` reads what `ndb_mgm` prints.  It adds up the percentages of the data nodes
and divides them by the number of lines it has found, then counts the SQL nodes and their
connections and computes the number of nodes to suggest; in the end it sends it all.  Only
the last of the three divisions is guarded.

## Main definitions

* `memoryLine`, `countLine`, `memoryReport` — the memory of the data nodes.
* `nodeAddress`, `countNode`, `sqlReport` — the connections of the SQL nodes.
* `report` — the figures that are sent.

## Main results

* `suggestedNode_ok` — the guarded division.
* `memoryReport_ok` — the divisions that are not guarded.
* `sends_iff` — **exactly when the figures are sent.**
-/

namespace BkPlatform.Mysql

open LinePattern

/-! ### The memory of the data nodes -/

/-- `stdout.splitlines(True)`. -/
def splitlines : List Char → List (List Char)
  | [] => []
  | '\r' :: '\n' :: cs => ['\r', '\n'] :: splitlines cs
  | c :: cs =>
    if c = '\n' ∨ c = '\r' then [c] :: splitlines cs
    else
      match splitlines cs with
      | [] => [[c]]
      | line :: lines => (c :: line) :: lines

/-- The characters of an expression that stand for themselves. -/
def literally (s : String) : List Piece := s.toList.map fun d => .one fun c => c == d

/-- `\w`. -/
def isWord (c : Char) : Bool := c.isAlphanum || c == '_'

/-- `^Node.(\d+):.(\w+).usage.*is.(\d+)%.*`. -/
def memoryPattern : List Piece :=
  literally "Node" ++
    [.one notNewline, .run 1 Char.isDigit, .one fun c => c == ':', .one notNewline, .run 1 isWord,
      .one notNewline] ++
    literally "usage" ++ [.run 0 notNewline] ++ literally "is" ++
    [.one notNewline, .run 1 Char.isDigit, .one fun c => c == '%', .run 0 notNewline]

/-- `m.group(2)` and `m.group(3)`, if the line matches. -/
def memoryLine (line : List Char) : Option (List Char × List Char) :=
  match capture memoryPattern line with
  | some [_, kind, _, percentage, _] => some (kind, percentage)
  | _ => none

/-- `eval` of some digits: a number that begins with a zero is octal. -/
def evalDigits : List Char → Except PyError ℤ
  | '0' :: digits =>
    if digits.all fun c => c.toNat < '8'.toNat then .ok (Nat.ofDigitChars 8 digits 0)
    else .error .syntaxError
  | digits => .ok (Nat.ofDigitChars 10 digits 0)

/-- What is added up. -/
structure MemoryCount where
  dataUsage : ℤ := 0
  indexUsage : ℤ := 0
  nodeD : ℤ := 0
  nodeI : ℤ := 0
  deriving DecidableEq, Repr

/-- One pass of the loop. -/
def countLine (s : MemoryCount) (line : List Char) : Except PyError MemoryCount :=
  match memoryLine line with
  | some (kind, percentage) =>
    if kind = "Data".toList then do
      let usage ← evalDigits percentage
      pure { s with dataUsage := s.dataUsage + usage, nodeD := s.nodeD + 1 }
    else if kind = "Index".toList then do
      let usage ← evalDigits percentage
      pure { s with indexUsage := s.indexUsage + usage, nodeI := s.nodeI + 1 }
    else pure s
  | none => pure s

/-- `data.usage` and `index.usage`. -/
def memoryReport (stdout : List Char) : Except PyError (ℤ × ℤ) := do
  let s ← (splitlines stdout).foldlM countLine {}
  let dataUsage ← floorDiv s.dataUsage s.nodeD
  let indexUsage ← floorDiv s.indexUsage s.nodeI
  pure (dataUsage, indexUsage)

/-! ### The connections of the SQL nodes -/

/-- `\s`. -/
def isBlank (c : Char) : Bool :=
  c == ' ' || c == '\t' || c == '\n' || c == '\x0b' || c == '\x0c' || c == '\r'

/-- `id=(\d+)\s*@(\d+\.\d+\.\d+\.\d+).*`. -/
def showPattern : List Piece :=
  literally "id=" ++ [.run 1 Char.isDigit, .run 0 isBlank] ++ literally "@" ++
    [.run 1 Char.isDigit] ++ literally "." ++ [.run 1 Char.isDigit] ++ literally "." ++
    [.run 1 Char.isDigit] ++ literally "." ++ [.run 1 Char.isDigit, .run 0 notNewline]

/-- `m.group(2)`, if the line matches. -/
def nodeAddress (line : List Char) : Option (List Char) :=
  match capture showPattern line with
  | some [_, _, a, b, c, d, _] => some (a ++ '.' :: b ++ '.' :: c ++ '.' :: d)
  | _ => none

/-- `type`, which stands for the section; before the first header it is the function of that
name. -/
def sectionType (line : List Char) (type : Option ℕ) : Option ℕ :=
  if "[ndbd(NDB)]".toList.isPrefixOf line then some 0
  else if "[ndb_mgmd(MGM)]".toList.isPrefixOf line then some 1
  else if "[mysqld(API)]".toList.isPrefixOf line then some 2
  else type

/-- What is counted. -/
structure SqlCount where
  type : Option ℕ := none
  threadsConnected : ℤ := 0
  maxConnections : ℤ := 0
  node : ℤ := 0
  processed : List (List Char) := []

/-- What a node at an address answers: `Threads_connected` and `max_connections`. -/
structure SqlStatus where
  threadsConnected : ℤ
  maxConnections : ℤ

section Report

variable (query : List Char → SqlStatus)

/-- One pass of the loop: a node that is not yet processed is asked. -/
def countNode (s : SqlCount) (line : List Char) : SqlCount :=
  match nodeAddress line with
  | some ip =>
    if sectionType line s.type = some 2 ∧ ip ∉ s.processed then
      { type := sectionType line s.type
        threadsConnected := s.threadsConnected + (query ip).threadsConnected
        maxConnections := s.maxConnections + (query ip).maxConnections
        node := s.node + 1
        processed := s.processed ++ [ip] }
    else { s with type := sectionType line s.type }
  | none => { s with type := sectionType line s.type }

/-- The counts after `ndb_mgm -e show`. -/
def sqlReport (stdout : List Char) : SqlCount := (splitlines stdout).foldl (countNode query) {}

/-- What is sent. -/
structure Report where
  dataUsage : ℤ
  indexUsage : ℤ
  node : ℤ
  threadsConnected : ℤ
  maxConnections : ℤ
  suggestedNode : ℤ
  deriving DecidableEq, Repr

/-- The script, up to where it sends: what `all report memory` and `show` print is read. -/
def report (memory nodes : List Char) : Except PyError Report := do
  let usage ← memoryReport memory
  let s := sqlReport query nodes
  let suggested ← suggestedNode s.node s.threadsConnected s.maxConnections
  pure ⟨usage.1, usage.2, s.node, s.threadsConnected, s.maxConnections, suggested⟩

/-! ### The guarded division -/

/-- **The guarded division**: with at least one connection for each node no divisor is zero. -/
theorem suggestedNode_ok {node threads connections : ℤ} (h : node ≤ connections) :
    ∃ s, suggestedNode node threads connections = .ok s := by
  unfold suggestedNode
  split
  · next hpos =>
    have hperNode : connections.fdiv node ≠ 0 := by
      rw [Int.fdiv_eq_ediv_of_nonneg _ (by omega)]
      have hone : 1 ≤ connections / node := (Int.le_ediv_iff_mul_le hpos).mpr (by omega)
      omega
    rw [floorDiv, if_neg (by omega)]
    simp only [bind, Except.bind, floorDiv, if_neg hperNode, pure, Except.pure]
    exact ⟨_, rfl⟩
  · exact ⟨_, rfl⟩

variable {query}

/-- One pass of the loop keeps at least one connection for each node. -/
theorem countNode_node_le (hquery : ∀ ip, 0 < (query ip).maxConnections) {s : SqlCount}
    (line : List Char) (h : s.node ≤ s.maxConnections) :
    (countNode query s line).node ≤ (countNode query s line).maxConnections := by
  unfold countNode
  split
  · next ip _ =>
    split
    · have hip := hquery ip
      show s.node + 1 ≤ s.maxConnections + (query ip).maxConnections
      omega
    · exact h
  · exact h

/-- There is at least one connection for each node that is counted. -/
theorem sqlReport_node_le (hquery : ∀ ip, 0 < (query ip).maxConnections) (nodes : List Char) :
    (sqlReport query nodes).node ≤ (sqlReport query nodes).maxConnections :=
  Run.foldl_inv (I := fun s : SqlCount => s.node ≤ s.maxConnections)
    (fun _ line h => countNode_node_le hquery line h) (Int.le_refl 0) (splitlines nodes)

/-! ### The divisions that are not guarded -/

/-- The line reports the usage of memory of that kind. -/
def IsReport (kind : String) (line : List Char) : Prop :=
  (memoryLine line).map Prod.fst = some kind.toList

instance (kind : String) (line : List Char) : Decidable (IsReport kind line) :=
  inferInstanceAs (Decidable (_ = _))

/-- Digits that are a number: after a leading zero they are octal. -/
def IsNumber (digits : List Char) : Prop :=
  digits.head? = some '0' → (digits.tail.all fun c => c.toNat < '8'.toNat) = true

/-- The percentage of the line is a number, if it is added up. -/
def Readable (line : List Char) : Prop :=
  ∀ m ∈ memoryLine line, m.1 = "Data".toList ∨ m.1 = "Index".toList → IsNumber m.2

instance (digits : List Char) : Decidable (IsNumber digits) :=
  inferInstanceAs (Decidable (_ → _))

instance (line : List Char) : Decidable (Readable line) :=
  inferInstanceAs (Decidable (∀ m ∈ memoryLine line, _ → _))

theorem evalDigits_ok {digits : List Char} :
    (∃ n, evalDigits digits = .ok n) ↔ IsNumber digits := by
  unfold evalDigits IsNumber
  split
  · next rest =>
    split
    · next hall => exact iff_of_true ⟨_, rfl⟩ fun _ => hall
    · next hall => exact iff_of_false (fun ⟨_, h⟩ => nomatch h) fun h => hall (h rfl)
  · next hzero =>
    refine iff_of_true ⟨_, rfl⟩ fun hhead => ?_
    obtain ⟨rest, hrest⟩ := List.head?_eq_some_iff.mp hhead
    exact absurd hrest (hzero rest)

/-- A step after another one that may fail. -/
theorem bind_eq_ok {α β : Type} {e : Except PyError α} {f : α → Except PyError β} {b : β} :
    (e >>= f) = .ok b ↔ ∃ a, e = .ok a ∧ f a = .ok b := by
  cases e with
  | error err => exact iff_of_false (fun h => nomatch h) fun ⟨_, h, _⟩ => nomatch h
  | ok a => exact ⟨fun h => ⟨a, rfl, h⟩, fun ⟨_, ha, h⟩ => Except.ok.inj ha ▸ h⟩

/-- One pass of the loop goes through if what it adds up is a number. -/
theorem countLine_ok {s : MemoryCount} {line : List Char} :
    (∃ s', countLine s line = .ok s') ↔ Readable line := by
  have hread : ∀ (digits : List Char) (f : ℤ → MemoryCount),
      (∃ s', (do let usage ← evalDigits digits; pure (f usage)) = Except.ok s') ↔
        IsNumber digits := by
    intro digits f
    rw [← evalDigits_ok]
    constructor
    · rintro ⟨_, h⟩
      obtain ⟨usage, husage, -⟩ := bind_eq_ok.mp h
      exact ⟨usage, husage⟩
    · rintro ⟨usage, husage⟩
      exact ⟨f usage, bind_eq_ok.mpr ⟨usage, husage, rfl⟩⟩
  unfold countLine Readable
  cases hline : memoryLine line with
  | none => exact iff_of_true ⟨s, rfl⟩ fun _ h => nomatch h
  | some m =>
    obtain ⟨kind, percentage⟩ := m
    simp only [Option.mem_some_iff, forall_eq']
    by_cases hdata : kind = "Data".toList
    · simp only [if_pos hdata, hread]
      exact ⟨fun h _ => h, fun h => h (Or.inl hdata)⟩
    · by_cases hindex : kind = "Index".toList
      · simp only [if_neg hdata, if_pos hindex, hread]
        exact ⟨fun h _ => h, fun h => h (Or.inr hindex)⟩
      · simp only [if_neg hdata, if_neg hindex]
        exact iff_of_true ⟨s, rfl⟩ fun h => absurd h (not_or.mpr ⟨hdata, hindex⟩)

/-- What one pass of the loop counts. -/
theorem countLine_node {s s' : MemoryCount} {line : List Char} (h : countLine s line = .ok s') :
    s'.nodeD = s.nodeD + (if IsReport "Data" line then 1 else 0) ∧
      s'.nodeI = s.nodeI + (if IsReport "Index" line then 1 else 0) := by
  unfold countLine at h
  cases hline : memoryLine line with
  | none =>
    have hreport : ∀ kind, ¬ IsReport kind line := fun kind hr => by
      rw [IsReport, hline] at hr
      cases hr
    rw [hline] at h
    obtain rfl := Except.ok.inj h
    rw [if_neg (hreport _), if_neg (hreport _)]
    exact ⟨(Int.add_zero _).symm, (Int.add_zero _).symm⟩
  | some m =>
    obtain ⟨kind, percentage⟩ := m
    have hreport : ∀ k, IsReport k line ↔ kind = k.toList := fun k => by
      rw [IsReport, hline, Option.map_some, Option.some.injEq]
    simp only [hline] at h
    simp only [hreport]
    split at h
    · next hdata =>
      obtain ⟨usage, -, hs'⟩ := bind_eq_ok.mp h
      obtain rfl := Except.ok.inj hs'
      subst hdata
      exact ⟨rfl, (Int.add_zero _).symm⟩
    · next hdata =>
      rw [if_neg hdata]
      split at h
      · next hindex =>
        obtain ⟨usage, -, hs'⟩ := bind_eq_ok.mp h
        obtain rfl := Except.ok.inj hs'
        rw [if_pos hindex]
        exact ⟨(Int.add_zero _).symm, rfl⟩
      · next hindex =>
        obtain rfl := Except.ok.inj h
        rw [if_neg hindex]
        exact ⟨(Int.add_zero _).symm, (Int.add_zero _).symm⟩

/-- The loop goes through if what it adds up are numbers. -/
theorem foldlM_countLine_ok {s : MemoryCount} {lines : List (List Char)} :
    (∃ s', lines.foldlM countLine s = .ok s') ↔ ∀ line ∈ lines, Readable line := by
  induction lines generalizing s with
  | nil => exact iff_of_true ⟨s, rfl⟩ fun _ h => absurd h List.not_mem_nil
  | cons line lines ih =>
    rw [List.forall_mem_cons, List.foldlM_cons, ← @countLine_ok s line]
    constructor
    · rintro ⟨s', h⟩
      obtain ⟨t, ht, hs'⟩ := bind_eq_ok.mp h
      exact ⟨⟨t, ht⟩, ih.mp ⟨s', hs'⟩⟩
    · rintro ⟨⟨t, ht⟩, hlines⟩
      obtain ⟨s', hs'⟩ := @ih t |>.mpr hlines
      exact ⟨s', bind_eq_ok.mpr ⟨t, ht, hs'⟩⟩

/-- The divisors are the numbers of the lines that report memory of each kind. -/
theorem foldlM_countLine_node {s s' : MemoryCount} {lines : List (List Char)}
    (h : lines.foldlM countLine s = .ok s') :
    s'.nodeD = s.nodeD + lines.countP (IsReport "Data" ·) ∧
      s'.nodeI = s.nodeI + lines.countP (IsReport "Index" ·) := by
  induction lines generalizing s with
  | nil =>
    obtain rfl := Except.ok.inj h
    exact ⟨(Int.add_zero _).symm, (Int.add_zero _).symm⟩
  | cons line lines ih =>
    rw [List.foldlM_cons] at h
    obtain ⟨t, ht, hs'⟩ := bind_eq_ok.mp h
    obtain ⟨hd, hi⟩ := countLine_node ht
    obtain ⟨hd', hi'⟩ := ih hs'
    simp only [List.countP_cons, decide_eq_true_eq]
    rw [hd', hd, hi', hi]
    constructor
    · split <;> omega
    · split <;> omega

/-- Counted from zero on. -/
theorem countLine_node_all {s : MemoryCount} {lines : List (List Char)}
    (h : lines.foldlM countLine {} = .ok s) :
    s.nodeD = lines.countP (IsReport "Data" ·) ∧ s.nodeI = lines.countP (IsReport "Index" ·) := by
  obtain ⟨hdata, hindex⟩ := foldlM_countLine_node h
  rw [hdata, hindex]
  exact ⟨Int.zero_add _, Int.zero_add _⟩

theorem floorDiv_ok {a b : ℤ} : (∃ q, floorDiv a b = .ok q) ↔ b ≠ 0 := by
  unfold floorDiv
  split
  · next hb => exact iff_of_false (fun ⟨_, h⟩ => nomatch h) fun hne => hne hb
  · next hb => exact iff_of_true ⟨_, rfl⟩ hb

/-- When the memory is reported. -/
theorem memoryReport_ok {memory : List Char} :
    (∃ usage, memoryReport memory = .ok usage) ↔
      (∀ line ∈ splitlines memory, Readable line) ∧
        (∃ line ∈ splitlines memory, IsReport "Data" line) ∧
        ∃ line ∈ splitlines memory, IsReport "Index" line := by
  have hcount : ∀ kind, (∃ line ∈ splitlines memory, IsReport kind line) ↔
      0 < (splitlines memory).countP (IsReport kind ·) := by
    intro kind
    simp only [List.countP_pos_iff, decide_eq_true_eq]
  rw [← @foldlM_countLine_ok {}, hcount, hcount]
  unfold memoryReport
  constructor
  · rintro ⟨usage, h⟩
    obtain ⟨s, hs, h⟩ := bind_eq_ok.mp h
    obtain ⟨d, hd, h⟩ := bind_eq_ok.mp h
    obtain ⟨i, hi, -⟩ := bind_eq_ok.mp h
    have hnodeD := floorDiv_ok.mp ⟨d, hd⟩
    have hnodeI := floorDiv_ok.mp ⟨i, hi⟩
    obtain ⟨hD, hI⟩ := countLine_node_all hs
    refine ⟨⟨s, hs⟩, ?_, ?_⟩
    · omega
    · omega
  · rintro ⟨⟨s, hs⟩, hdata, hindex⟩
    obtain ⟨hD, hI⟩ := countLine_node_all hs
    obtain ⟨d, hd⟩ := (@floorDiv_ok s.dataUsage s.nodeD).mpr (by omega)
    obtain ⟨i, hi⟩ := (@floorDiv_ok s.indexUsage s.nodeI).mpr (by omega)
    exact ⟨(d, i), bind_eq_ok.mpr ⟨s, hs, bind_eq_ok.mpr ⟨d, hd, bind_eq_ok.mpr ⟨i, hi, rfl⟩⟩⟩⟩

/-- **Exactly when the figures are sent**: if some line reports the memory for data, some line
the memory for indexes, and all of their percentages are numbers. -/
theorem sends_iff (hquery : ∀ ip, 0 < (query ip).maxConnections) (memory nodes : List Char) :
    (∃ figures, report query memory nodes = .ok figures) ↔
      (∀ line ∈ splitlines memory, Readable line) ∧
        (∃ line ∈ splitlines memory, IsReport "Data" line) ∧
        ∃ line ∈ splitlines memory, IsReport "Index" line := by
  rw [← memoryReport_ok]
  unfold report
  constructor
  · rintro ⟨figures, h⟩
    obtain ⟨usage, husage, -⟩ := bind_eq_ok.mp h
    exact ⟨usage, husage⟩
  · rintro ⟨usage, husage⟩
    obtain ⟨suggested, hsuggested⟩ := suggestedNode_ok (sqlReport_node_le hquery nodes)
    exact ⟨_, bind_eq_ok.mpr ⟨usage, husage, bind_eq_ok.mpr ⟨suggested, hsuggested, rfl⟩⟩⟩

/-- One data node and one SQL node report. -/
theorem sends_one_node : ∃ figures, report (fun _ => ⟨3, 151⟩)
    ("Node 2: Data usage is 5%(175 32K pages of total 3200)\n" ++
      "Node 2: Index usage is 0%(30 8K pages of total 12832)\n").toList
    "[mysqld(API)]\t1 node(s)\nid=4\t@10.0.0.7  (mysql-5.6.11 ndb-7.3.2)\n".toList = .ok figures :=
  (sends_iff (fun _ => by decide) _ _).mpr ⟨by decide +kernel, by decide +kernel, by decide +kernel⟩

/-- No data node reports: the usage is divided by zero, and the figures of the SQL node are not
sent. -/
theorem silent_without_data_node : report (fun _ => ⟨3, 151⟩)
    "Connected to Management Server at: localhost:1186\n".toList
    "[mysqld(API)]\t1 node(s)\nid=4\t@10.0.0.7  (mysql-5.6.11 ndb-7.3.2)\n".toList =
      .error .zeroDivisionError := by decide +kernel

end Report

end BkPlatform.Mysql
