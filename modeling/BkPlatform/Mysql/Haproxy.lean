import BkPlatform.Lib.LineRange
import BkPlatform.Mysql.Hosts
import BkPlatform.Mysql.ScaleDown

/-!
# The block of the load balancer

`rolling_restart.py` sorts the SQL machines by their names, reverses the list, and hands their
addresses to `haproxy-mysql.sh`.  The script deletes the servers between two markers of
`haproxy.cfg` and appends one for each of its arguments behind the first marker, so that the
last argument comes first.

## Main definitions

* `HostAddress` — an argument of the script.
* `isStart`, `isEnd`, `keeps` — what the expressions of the script match.
* `server`, `haproxyMysql` — the script.
* `ApiNode`, `sortedSqls`, `haproxyArgs` — the arguments of `rolling_restart.py`.

## Main results

* `haproxyMysql_lines` — what the script makes of a file with a block.
* `haproxyMysql_rewrites` — **the block is rewritten, and nothing else.**
-/

namespace BkPlatform.Mysql

open LineRange

/-! ### The script -/

/-- A character of an address or the name of a host. -/
def isHostChar (c : Char) : Bool := c.isAlphanum || c == '.' || c == ':' || c == '-'

/-- An address or the name of a host: the shell takes it as it is. -/
structure HostAddress where
  text : String
  ne : text ≠ ""
  plain : text.toList.all isHostChar = true
  deriving DecidableEq, Repr

/-- `/^.*# MYSQL START/`. -/
def isStart (line : String) : Bool := contains line "# MYSQL START"

/-- `/^.*# MYSQL END/`. -/
def isEnd (line : String) : Bool := contains line "# MYSQL END"

/-- A line that is not deleted: it matches `/^.*#/` or `/^\$/`. -/
def keeps (line : String) : Bool := contains line "#" || line.toList.head? == some '$'

/-- The line that is appended for an argument. -/
def server (i : HostAddress) : String := "    server\t" ++ i.text ++ " " ++ i.text ++ ":3306 check"

/-- `haproxy-mysql.sh`, on the lines of `/etc/haproxy/haproxy.cfg`. -/
def haproxyMysql (args : List HostAddress) (lines : List String) : List String :=
  args.foldl (fun lines i => appendAt isStart (server i) lines)
    (deleteIn isStart isEnd keeps false lines)

/-! ### The arguments -/

/-- A listed SQL machine: its name, and `nic[0].ipaddress`. -/
structure ApiNode where
  name : String
  ipaddress : HostAddress
  deriving DecidableEq, Repr

/-- `sqls.sort(key=lambda x:natural_keys(x['name']))`. -/
def sortedSqls (sqls : List ApiNode) : List ApiNode :=
  sqls.mergeSort fun x y => decide (naturalKeys x.name ≤ naturalKeys y.name)

/-- The arguments of the script, after `sqls.reverse()`. -/
def haproxyArgs (sqls : List ApiNode) : List HostAddress :=
  (sortedSqls sqls).reverse.map ApiNode.ipaddress

/-! ### Lines and markers -/

theorem mem_of_contains {line s : String} {c : Char} (h : contains line s = true)
    (hc : c ∈ s.toList) : c ∈ line.toList :=
  (of_decide_eq_true h).subset hc

theorem contains_hash {line : String} (h : '#' ∈ line.toList) : contains line "#" = true := by
  obtain ⟨u, v, huv⟩ := List.append_of_mem h
  exact decide_eq_true ⟨u, v, by rw [huv, List.append_assoc]; rfl⟩

/-- The markers are kept. -/
theorem keeps_of_contains {line s : String} (h : contains line s = true) (hs : '#' ∈ s.toList) :
    keeps line = true := by
  rw [keeps, contains_hash (mem_of_contains h hs), Bool.true_or]

theorem not_mem_server (i : HostAddress) : '#' ∉ (server i).toList := by
  have htext : '#' ∉ i.text.toList := fun h =>
    absurd (List.all_eq_true.mp i.plain '#' h) (by decide)
  simp [server, htext]

/-- A server is no marker, and is deleted the next time. -/
theorem plain_server (i : HostAddress) :
    (isStart (server i) = false ∧ isEnd (server i) = false) ∧ keeps (server i) = false := by
  have hnot : ∀ s : String, '#' ∈ s.toList → contains (server i) s = false := by
    intro s hs
    rw [Bool.eq_false_iff]
    exact fun h => not_mem_server i (mem_of_contains h hs)
  refine ⟨⟨hnot _ (by decide), hnot _ (by decide)⟩, ?_⟩
  rw [keeps, hnot _ (by decide)]
  simp [server]

theorem plain_servers (args : List HostAddress) :
    ∀ l ∈ args.map server, isStart l = false ∧ isEnd l = false := by
  intro l hl
  obtain ⟨i, -, rfl⟩ := List.mem_map.mp hl
  exact (plain_server i).1

/-- What the script leaves between the markers. -/
def rewritten (args : List HostAddress) (body : List String) : List String :=
  args.reverse.map server ++ body.filter keeps

/-- **What the script makes of a file with a block.** -/
theorem haproxyMysql_lines (args : List HostAddress) (b : Block isStart isEnd) :
    haproxyMysql args b.lines =
      b.before ++ b.head :: (rewritten args b.body ++ b.foot :: b.after) := by
  have hkept : ∀ l ∈ b.body.filter keeps, isStart l = false ∧ isEnd l = false :=
    fun l hl => b.body_plain l (List.mem_filter.mp hl).1
  have hdeleted : deleteIn isStart isEnd keeps false b.lines = (b.withBody _ hkept).lines :=
    b.deleteIn_lines (keeps_of_contains b.head_first (by decide))
      (keeps_of_contains b.foot_last (by decide))
  have happended := (b.withBody _ hkept).foldl_appendAt_lines (args.map server)
    (plain_servers args)
  rw [List.foldl_map, ← hdeleted, ← List.map_reverse] at happended
  exact happended

/-- A block that has been rewritten stays as it is. -/
theorem rewritten_rewritten (args : List HostAddress) (body : List String) :
    rewritten args (rewritten args body) = rewritten args body := by
  have hservers : (args.reverse.map server).filter keeps = [] := by
    rw [List.filter_eq_nil_iff]
    intro l hl
    obtain ⟨i, -, rfl⟩ := List.mem_map.mp hl
    simp [(plain_server i).2]
  rw [rewritten, rewritten, List.filter_append, hservers, List.filter_filter]
  simp

/-! ### The whole file -/

/-- What a run is to do with a file.  The lines outside of the markers, and the markers, stay;
between them stand the servers of the arguments in reverse order and what is to be kept; another
run changes nothing; and with the arguments of `rolling_restart.py` the servers stand in the
order of the names. -/
def Rewrites (lines : List String) : Prop :=
  ∃ before head body foot after,
    lines = before ++ head :: (body ++ foot :: after) ∧ isStart head = true ∧
    isEnd foot = true ∧ (∀ l ∈ body, isEnd l = false) ∧
    (∀ args : List HostAddress,
      haproxyMysql args lines =
        before ++ head :: (args.reverse.map server ++ body.filter keeps ++ foot :: after) ∧
      haproxyMysql args (haproxyMysql args lines) = haproxyMysql args lines) ∧
    ∀ sqls : List ApiNode, ∃ sorted : List ApiNode, sorted.Perm sqls ∧
      sorted.Pairwise (fun x y => naturalKeys x.name ≤ naturalKeys y.name) ∧
      haproxyMysql (haproxyArgs sqls) lines =
        before ++ head :: (sorted.map (fun x => server x.ipaddress) ++ body.filter keeps ++
          foot :: after)

/-- **The block is rewritten, and nothing else**, in every file with one first marker and one
second marker behind it. -/
theorem haproxyMysql_rewrites (lines : List String) (hstart : lines.countP isStart = 1)
    (hend : (lines.dropWhile fun l => !isStart l).tail.countP isEnd = 1) : Rewrites lines := by
  obtain ⟨b, rfl⟩ := exists_block hstart hend
  refine ⟨b.before, b.head, b.body, b.foot, b.after, rfl, b.head_first, b.foot_last,
    fun l hl => (b.body_plain l hl).2, fun args => ⟨haproxyMysql_lines args b, ?_⟩, fun sqls =>
      ⟨sortedSqls sqls, List.mergeSort_perm _ _, pairwise_mergeSort_naturalKeys _ _, ?_⟩⟩
  · have hplain : ∀ l ∈ rewritten args b.body, isStart l = false ∧ isEnd l = false := by
      intro l hl
      rcases List.mem_append.mp hl with hl | hl
      · exact plain_servers args.reverse l hl
      · exact b.body_plain l (List.mem_filter.mp hl).1
    have hagain := haproxyMysql_lines args (b.withBody _ hplain)
    rw [haproxyMysql_lines, ← b.lines_withBody _ hplain, hagain]
    show _ ++ _ :: (rewritten args (rewritten args b.body) ++ _) = _
    rw [rewritten_rewritten]
    rfl
  · have hservers : (haproxyArgs sqls).reverse.map server =
        (sortedSqls sqls).map fun x => server x.ipaddress := by
      rw [haproxyArgs, ← List.map_reverse, List.reverse_reverse, List.map_map]
      rfl
    rw [haproxyMysql_lines, rewritten, hservers]

/-- The end of the file that is delivered. -/
def delivered : List String :=
  ["    option\tmysql-check user haproxy", "    # MYSQL START",
    "    server\t192.168.50.94 192.168.50.94:3306 check",
    "    server\t192.168.50.99 192.168.50.99:3306 check", "    # MYSQL END"]

theorem haproxyMysql_rewrites_delivered : Rewrites delivered :=
  haproxyMysql_rewrites delivered (by decide) (by decide)

end BkPlatform.Mysql
