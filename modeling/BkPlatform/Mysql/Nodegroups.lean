import BkPlatform.Mysql.Monitoring
import Mathlib.Data.List.Infix

/-!
# Node groups for new data nodes

At its end `rolling_restart.py` reads the numbers of the data nodes without a node group, takes
them two by two, and calls a shell for each pair.  The call is given a list: its first element is
what the shell executes, and that is `ndb_mgm -e` and nothing more.  The statement that creates a
group is the second one, a parameter of the shell that nothing refers to.

## Main definitions

* `newDataIds` — the numbers that are read.
* `Shell`, `popen` — a call with a list.
* `updateNodegroup` — the calls.
* `JoinsGroups` — a group is created for each pair.

## Main results

* `zip_everyOther`, `flatMap_pairs` — which pairs are taken.
* `parameters_updateNodegroup` — where the statements end up.
* `joinsGroups_iff` — **exactly when the groups are created.**
-/

namespace BkPlatform.Mysql

open LinePattern

/-! ### The numbers -/

/-- `id=(\d+)\s*\D*(\d+\.\d+\.\d+\.\d+).*no.nodegroup`. -/
def nodegroupPattern : List Piece :=
  literally "id=" ++ [.run 1 Char.isDigit, .run 0 isBlank, .run 0 fun c => !c.isDigit] ++
    [.run 1 Char.isDigit] ++ literally "." ++ [.run 1 Char.isDigit] ++ literally "." ++
    [.run 1 Char.isDigit] ++ literally "." ++ [.run 1 Char.isDigit, .run 0 notNewline] ++
    literally "no" ++ [.one notNewline] ++ literally "nodegroup"

/-- `m.group(1)`, if the line matches. -/
def newDataId (line : List Char) : Option (List Char) :=
  match capture nodegroupPattern line with
  | some (id :: _) => some id
  | _ => none

/-- `new_data_ids`, from the output of `ndb_mgm -e show`. -/
def newDataIds (stdout : List Char) : List (List Char) := (splitlines stdout).filterMap newDataId

/-! ### The calls -/

section Pairs

variable {α : Type*}

/-- `l[0::2]`. -/
def everyOther : List α → List α
  | [] => []
  | [a] => [a]
  | a :: _ :: l => a :: everyOther l

/-- The elements two by two; the last of an odd number is left out. -/
def pairs : List α → List (α × α)
  | [] => []
  | [_] => []
  | a :: b :: l => (a, b) :: pairs l

/-- `zip(l[0::2], l[1::2])`. -/
theorem zip_everyOther (l : List α) : (everyOther l).zip (everyOther l.tail) = pairs l := by
  induction l using pairs.induct with
  | case1 => rfl
  | case2 a => rfl
  | case3 a b l ih =>
    rw [pairs, ← ih]
    cases l with
    | nil => rfl
    | cons c l => rfl

/-- Every element but the last of an odd number stands in one pair. -/
theorem flatMap_pairs (l : List α) :
    (pairs l).flatMap (fun p => [p.1, p.2]) = l.take (2 * (l.length / 2)) := by
  induction l using pairs.induct with
  | case1 => simp [pairs]
  | case2 a => simp [pairs]
  | case3 a b l ih =>
    have hlength : 2 * ((a :: b :: l).length / 2) = 2 * (l.length / 2) + 2 := by
      simp only [List.length_cons]
      omega
    rw [pairs, List.flatMap_cons, ih, hlength]
    rfl

theorem pairs_eq_nil {l : List α} : pairs l = [] ↔ l.length < 2 := by
  cases l with
  | nil => exact iff_of_true rfl (by simp)
  | cons a l =>
    cases l with
    | nil => exact iff_of_true rfl (by simp)
    | cons b l => exact iff_of_false (by simp [pairs]) (by simp)

end Pairs

/-- A shell: what it executes, and its own parameters. -/
structure Shell where
  command : List Char
  parameters : List (List Char)
  deriving DecidableEq, Repr

/-- `subprocess.Popen(args, shell=True)`: `/bin/sh -c` in front of the list. -/
def popen : List (List Char) → Shell
  | [] => ⟨[], []⟩
  | command :: parameters => ⟨command, parameters⟩

/-- `ndb_mgm` with a statement to come. -/
def ndbMgm : List Char := "/usr/local/mysql-cluster/bin/ndb_mgm -e ".toList

/-- `"CREATE NODEGROUP i,k"`, with its quotes. -/
def createNodegroup (p : List Char × List Char) : List Char :=
  "\"CREATE NODEGROUP ".toList ++ p.1 ++ ",".toList ++ p.2 ++ "\"".toList

/-- The calls after the data nodes have been started: the first one asks for the nodes. -/
def updateNodegroup (stdout : List Char) : List Shell :=
  let ids := newDataIds stdout
  popen [ndbMgm ++ "show".toList] ::
    ((everyOther ids).zip (everyOther ids.tail)).map fun p => popen [ndbMgm, createNodegroup p]

/-! ### What is executed -/

/-- The command creates a group. -/
def creates (command : List Char) : Bool := decide ("CREATE NODEGROUP".toList <:+: command)

/-- The commands that are executed and create a group. -/
def created (stdout : List Char) : List (List Char) :=
  ((updateNodegroup stdout).map Shell.command).filter creates

/-- **A group is created for each pair of the numbers**, one after the other, and no other; and
every number but the last of an odd number stands in one pair. -/
def JoinsGroups (stdout : List Char) : Prop :=
  let ids := newDataIds stdout
  created stdout = (pairs ids).map (fun p => ndbMgm ++ createNodegroup p) ∧
    (pairs ids).flatMap (fun p => [p.1, p.2]) = ids.take (2 * (ids.length / 2))

/-- The statements are parameters of the shells. -/
theorem parameters_updateNodegroup (stdout : List Char) :
    (updateNodegroup stdout).tail.map Shell.parameters =
      (pairs (newDataIds stdout)).map fun p => [createNodegroup p] := by
  rw [updateNodegroup, List.tail_cons, zip_everyOther, List.map_map]
  rfl

/-- No group is ever created. -/
theorem created_eq_nil (stdout : List Char) : created stdout = [] := by
  rw [created, List.filter_eq_nil_iff, List.forall_mem_map]
  intro shell hshell
  have hnot : creates shell.command = false := by
    rw [updateNodegroup, List.mem_cons, List.mem_map] at hshell
    rcases hshell with rfl | ⟨p, -, rfl⟩
    · decide
    · show creates ndbMgm = false
      decide
  simp [hnot]

/-- **Exactly when the groups are created**: when there are none to create. -/
theorem joinsGroups_iff (stdout : List Char) :
    JoinsGroups stdout ↔ (newDataIds stdout).length < 2 := by
  rw [JoinsGroups, and_iff_left (flatMap_pairs _), created_eq_nil, eq_comm, List.map_eq_nil_iff,
    pairs_eq_nil]

/-- Two data nodes without a group. -/
def twoNew : List Char :=
  "[ndbd(NDB)]\nid=3 @10.0.0.3 (no nodegroup)\nid=4 @10.0.0.4 (no nodegroup)\n".toList

theorem not_joinsGroups_twoNew : ¬ JoinsGroups twoNew := by
  rw [joinsGroups_iff]
  decide

end BkPlatform.Mysql
