import BkPlatform.Lib.Run
import BkPlatform.Mysql.Hosts

/-!
# The id blocks of the SQL nodes of one run

Every SQL node is followed by three API slots, so its number begins a block of four.  The
cursor of the search keeps the last slot of the block given out last, counted from 49; the next
search begins one block further on, and goes on in blocks.

## Main definitions

* `Request`, `serve` — a `requestID` and the `updateID` that follows it.
* `sqlIds` — the numbers the SQL nodes of a run are given.

## Main results

* `requestID_sql_blocks` — **the search for an SQL number ends, at the beginning of a block that
  is not in the table, and the blocks of one run do not overlap.**
-/

namespace BkPlatform.Mysql

open Probe

/-- A call of `requestID`, and the address its result is recorded for. -/
structure Request where
  nodetype : NodeType
  ipaddress : Address
  deriving DecidableEq, Repr

/-- `id = requestID(nodetype)` and `updateID(ipaddress, str(id))`. -/
def serve (s : Assignment) (r : Request) : Assignment :=
  let (id, s) := requestID s r.nodetype
  let hosts := updateID s.hosts r.ipaddress id
  { s with hosts := hosts, committed := hosts }

/-- The numbers given to SQL nodes. -/
def sqlIds : Assignment → List Request → List ℤ
  | _, [] => []
  | s, r :: rest =>
    if r.nodetype = .sql then (requestID s .sql).1 :: sqlIds (serve s r) rest
    else sqlIds (serve s r) rest

/-- The start of the next search for an SQL node. -/
def Assignment.nextBlock (s : Assignment) : ℤ := 49 + s.requestTmpSql + 1

/-- The next search for an SQL node begins with a block. -/
def Assignment.OnBlock (s : Assignment) : Prop := ∃ k : ℕ, s.nextBlock = 49 + 4 * k

/-- **One search**: it ends, at the beginning of a block behind the cursor that is not in
the table. -/
theorem requestID_sql_walks {s : Assignment} (h : s.OnBlock) :
    Walks (fun i => i ∈ ids s.hosts) 4 s.nextBlock (requestID s .sql).1 ∧
      (requestID s .sql).1 ∉ ids s.hosts ∧ s.nextBlock ≤ (requestID s .sql).1 ∧
      ∃ k : ℕ, (requestID s .sql).1 = 49 + 4 * k := by
  have hfresh := requestID_sql_fresh s
  obtain ⟨k, hk⟩ := h
  obtain ⟨n, hn, -⟩ := probe_walk (fun i => i ∈ ids s.hosts) 4 (ids s.hosts).length s.nextBlock
  have hid : (requestID s .sql).1 = s.nextBlock + n * 4 := hn
  refine ⟨walks_probe (decide_eq_false hfresh), hfresh, by omega, k + n, ?_⟩
  rw [hid, hk]
  push_cast
  ring

/-- What is recorded after a search does not move the cursor. -/
theorem nextBlock_serve (s : Assignment) (r : Request) :
    (serve s r).nextBlock =
      if r.nodetype = .sql then (requestID s .sql).1 + 4 else s.nextBlock := by
  obtain ⟨nodetype, ip⟩ := r
  cases nodetype with
  | sql =>
    show 49 + ((requestID s .sql).1 - 49 + 3) + 1 = (requestID s .sql).1 + 4
    ring
  | management => rfl
  | data => rfl

theorem Assignment.OnBlock.serve {s : Assignment} (h : s.OnBlock) (r : Request) :
    (serve s r).OnBlock := by
  rw [Assignment.OnBlock, nextBlock_serve]
  split
  · obtain ⟨-, -, -, k, hk⟩ := requestID_sql_walks h
    exact ⟨k + 1, by rw [hk]; push_cast; ring⟩
  · exact h

/-- The numbers SQL nodes are given lie behind the cursor, a block or more from each other. -/
theorem sqlIds_blocks {s : Assignment} (h : s.OnBlock) (requests : List Request) :
    (∀ id ∈ sqlIds s requests, s.nextBlock ≤ id) ∧
      (sqlIds s requests).Pairwise fun a b => a + 4 ≤ b := by
  induction requests generalizing s with
  | nil => exact ⟨fun _ hid => absurd hid List.not_mem_nil, List.Pairwise.nil⟩
  | cons r rest ih =>
    obtain ⟨hbehind, hapart⟩ := ih (h.serve r)
    rw [nextBlock_serve] at hbehind
    rw [sqlIds]
    split
    · next hsql =>
      rw [if_pos hsql] at hbehind
      obtain ⟨-, -, hstart, -⟩ := requestID_sql_walks h
      refine ⟨fun id hid => ?_, List.pairwise_cons.mpr ⟨hbehind, hapart⟩⟩
      rcases List.mem_cons.mp hid with rfl | hlater
      · exact hstart
      · have hnext := hbehind id hlater
        omega
    · next hother =>
      rw [if_neg hother] at hbehind
      exact ⟨hbehind, hapart⟩

/-- The state of a run before its first request. -/
def beforeRequests (hosts : List Host) : Assignment where
  hosts := hosts
  committed := hosts

/-- **The blocks of one run do not overlap**: each search for an SQL number ends, at a number
`49 + 4 * k` that is not in the table, and each of these numbers is four or more above
those given before. -/
theorem requestID_sql_blocks (hosts : List Host) (requests : List Request) :
    (∀ served ip rest, requests = served ++ ⟨.sql, ip⟩ :: rest →
      let s := served.foldl serve (beforeRequests hosts)
      let id := (requestID s .sql).1
      Walks (fun i => i ∈ ids s.hosts) 4 (49 + s.requestTmpSql + 1) id ∧ id ∉ ids s.hosts ∧
        ∃ k : ℕ, id = 49 + 4 * k) ∧
    (sqlIds (beforeRequests hosts) requests).Pairwise fun a b => a + 4 ≤ b := by
  have hstart : (beforeRequests hosts).OnBlock := ⟨0, rfl⟩
  refine ⟨fun served ip rest _ => ?_, (sqlIds_blocks hstart requests).2⟩
  have hon : (served.foldl serve (beforeRequests hosts)).OnBlock :=
    Run.foldl_inv (fun _ r h => h.serve r) hstart served
  obtain ⟨hwalks, hfresh, -, hblock⟩ := requestID_sql_walks hon
  exact ⟨hwalks, hfresh, hblock⟩

end BkPlatform.Mysql
