import BkPlatform.Lib.Run
import BkPlatform.Mysql.Suggestion
import Mathlib.Data.List.Lex
import Mathlib.Data.List.Nodup
import Mathlib.Data.Char
import Mathlib.Data.Sum.Order

/-!
# Scaling down

`delete_host.py sql` sorts the SQL machines by their names, numbers as numbers, and destroys
all but the first ones.  How many are kept is computed from the arguments inside of a
`try`; but arguments of a process are strings, which cannot be subtracted, so that two are
kept, and if there are no more than two machines, one.

## Main definitions

* `naturalKeys` — the order of the names.
* `nodeBound`, `deleteInstances`, `deleteHost` — what a run destroys.

## Main results

* `nodeBound_eq` — the arguments make no difference.
* `length_deleteHost` — how many machines a run leaves.
* `reachesSuggested_iff` — **exactly when the suggested number is reached.**
* `keepsTwo_iff` — **exactly when two machines remain after any number of runs.**
-/

namespace BkPlatform.Mysql

/-! ### The order of the names -/

/-- `re.split('(\d+)', text)`: text and digits in turn, beginning and ending with text.  The
flag says that the piece read consists of digits. -/
def splitDigits : Bool → List Char → List (List Char)
  | false, [] => [[]]
  | true, [] => [[], []]
  | inDigits, c :: cs =>
    if c.isDigit = inDigits then (splitDigits inDigits cs).modifyHead (c :: ·)
    else [] :: (splitDigits (!inDigits) cs).modifyHead (c :: ·)

/-- `atoi`: a number comes before every string. -/
def atoi (text : List Char) : ℕ ⊕ₗ List Char :=
  if text ≠ [] ∧ text.all Char.isDigit then toLex (.inl (Nat.ofDigitChars 10 text 0))
  else toLex (.inr text)

/-- `natural_keys`. -/
def naturalKeys (text : String) : List (ℕ ⊕ₗ List Char) := (splitDigits false text.toList).map atoi

/-- A listed machine. -/
structure SqlVm where
  id : String
  name : String
  deriving DecidableEq, Repr

/-- `sorted_instances.sort(key=lambda x:natural_keys(x['name']))`; the sort is stable. -/
def sortedInstances (instances : List SqlVm) : List SqlVm :=
  instances.mergeSort fun x y => decide (naturalKeys x.name ≤ naturalKeys y.name)

/-- What is sorted by names stands in their order. -/
theorem pairwise_mergeSort_naturalKeys {α : Type*} (name : α → String) (l : List α) :
    (l.mergeSort fun x y => decide (naturalKeys (name x) ≤ naturalKeys (name y))).Pairwise
      fun x y => naturalKeys (name x) ≤ naturalKeys (name y) := by
  let le : α → α → Bool := fun x y => decide (naturalKeys (name x) ≤ naturalKeys (name y))
  have htrans : ∀ x y z, le x y = true → le y z = true → le x z = true := by
    intro x y z hxy hyz
    rw [decide_eq_true_eq] at hxy hyz ⊢
    exact hxy.trans hyz
  have htotal : ∀ x y, (le x y || le y x) = true := by
    intro x y
    rw [Bool.or_eq_true, decide_eq_true_eq, decide_eq_true_eq]
    exact le_total _ _
  have hsorted : (l.mergeSort le).Pairwise fun x y => le x y = true :=
    List.pairwise_mergeSort htrans htotal l
  exact hsorted.imp fun h => decide_eq_true_eq.mp h

/-- The machines stand in the order of their names. -/
theorem pairwise_sortedInstances (instances : List SqlVm) :
    (sortedInstances instances).Pairwise fun x y => naturalKeys x.name ≤ naturalKeys y.name :=
  pairwise_mergeSort_naturalKeys SqlVm.name instances

/-! ### How many are kept -/

/-- What the script computes with. -/
inductive PyObject
  | int (n : ℤ)
  | str (s : String)
  deriving DecidableEq, Repr

/-- `a - b`: strings cannot be subtracted. -/
def PyObject.sub : PyObject → PyObject → Except PyError ℤ
  | .int a, .int b => .ok (a - b)
  | _, _ => .error .typeError

/-- `sys.argv[i]`, which is a string. -/
def item (argv : List String) (i : ℕ) : Except PyError PyObject :=
  match argv[i]? with
  | some s => .ok (.str s)
  | none => .error .indexError

/-- `node`: `try: node = sys.argv[2] - sys.argv[3]`, `except: node = 2`, and at least 2. -/
def nodeBound (argv : List String) : ℤ :=
  let node :=
    match (do (← item argv 2).sub (← item argv 3)) with
    | .ok node => node
    | .error _ => 2
  if node < 2 then 2 else node

/-- `delete_instances`. -/
def deleteInstances (argv : List String) (instances : List SqlVm) : List SqlVm :=
  let sorted := sortedInstances instances
  let node := nodeBound argv
  if (sorted.length : ℤ) > node then sorted.drop node.toNat else sorted.drop 1

/-- The SQL machines of the cloud, each with an id of its own. -/
structure SqlVms where
  vms : List SqlVm
  nodup : (vms.map SqlVm.id).Nodup

/-- `delete_host.py`: with `sql`, the machines it finds superfluous are destroyed by their ids;
with anything else, it exits. -/
def deleteHost (argv : List String) (cloud : SqlVms) : SqlVms :=
  if argv[1]? = some "sql" then
    { vms := cloud.vms.filter fun vm => vm.id ∉ (deleteInstances argv cloud.vms).map SqlVm.id
      nodup := cloud.nodup.sublist (List.filter_sublist.map _) }
  else cloud

/-- **The arguments make no difference.** -/
theorem nodeBound_eq (argv : List String) : nodeBound argv = 2 := by
  have hfails : ∃ e, (do (← item argv 2).sub (← item argv 3)) = Except.error e := by
    unfold item
    cases argv[2]? with
    | none => exact ⟨_, rfl⟩
    | some s =>
      cases argv[3]? with
      | none => exact ⟨_, rfl⟩
      | some t => exact ⟨_, rfl⟩
  obtain ⟨e, he⟩ := hfails
  rw [nodeBound, he]
  rfl

/-! ### What is left -/

/-- How many are kept of some machines: two, or one if there are no more than two. -/
def keptCount (n : ℕ) : ℕ := if 2 < n then 2 else 1

theorem deleteInstances_eq (argv : List String) (instances : List SqlVm) :
    deleteInstances argv instances =
      (sortedInstances instances).drop (keptCount instances.length) := by
  have hlength : (sortedInstances instances).length = instances.length := List.length_mergeSort _
  rw [deleteInstances, nodeBound_eq, hlength, keptCount]
  by_cases h : 2 < instances.length
  · rw [if_pos h, if_pos (by omega)]
    rfl
  · rw [if_neg h, if_neg (by omega)]

/-- Destroying the machines behind the first `k` leaves the first `k`. -/
theorem perm_take_of_destroy {vms : List SqlVm} (hnodup : (vms.map SqlVm.id).Nodup) (k : ℕ) :
    (vms.filter fun vm => vm.id ∉ ((sortedInstances vms).drop k).map SqlVm.id).Perm
      ((sortedInstances vms).take k) := by
  let sorted := sortedInstances vms
  let gone := (sorted.drop k).map SqlVm.id
  have hperm : sorted.Perm vms := List.mergeSort_perm _ _
  have hids : ((sorted.take k).map SqlVm.id ++ gone).Nodup := by
    rw [← List.map_append, List.take_append_drop]
    exact (hperm.map _).nodup_iff.mpr hnodup
  have hkept : (sorted.take k).filter (fun vm => vm.id ∉ gone) = sorted.take k := by
    rw [List.filter_eq_self]
    intro vm hvm
    refine decide_eq_true fun hgone => ?_
    exact List.disjoint_of_nodup_append hids (List.mem_map_of_mem hvm) hgone
  have hdestroyed : (sorted.drop k).filter (fun vm => vm.id ∉ gone) = [] := by
    rw [List.filter_eq_nil_iff]
    intro vm hvm hnot
    exact of_decide_eq_true hnot (List.mem_map_of_mem hvm)
  have hsplit : sorted.filter (fun vm => vm.id ∉ gone) = sorted.take k := by
    calc sorted.filter (fun vm => vm.id ∉ gone)
        = (sorted.take k ++ sorted.drop k).filter (fun vm => vm.id ∉ gone) := by
          rw [List.take_append_drop]
      _ = sorted.take k := by rw [List.filter_append, hkept, hdestroyed, List.append_nil]
  rw [← hsplit]
  exact hperm.symm.filter _

/-- What a run leaves are the first machines in the order of their names. -/
theorem deleteHost_perm {argv : List String} (hsql : argv[1]? = some "sql") (cloud : SqlVms) :
    (deleteHost argv cloud).vms.Perm
      ((sortedInstances cloud.vms).take (keptCount cloud.vms.length)) := by
  rw [deleteHost, if_pos hsql]
  show (cloud.vms.filter _).Perm _
  rw [deleteInstances_eq]
  exact perm_take_of_destroy cloud.nodup _

/-- How many machines a run leaves. -/
theorem length_deleteHost {argv : List String} (hsql : argv[1]? = some "sql") (cloud : SqlVms) :
    (deleteHost argv cloud).vms.length = min (keptCount cloud.vms.length) cloud.vms.length := by
  rw [(deleteHost_perm hsql cloud).length_eq, List.length_take, sortedInstances,
    List.length_mergeSort]

/-! ### The suggested number -/

/-- The command of the action: the number of nodes, and the number suggested. -/
def actionArgs (current suggested : ℕ) : List String :=
  ["/script/delete_host.py", "sql", toString current, toString suggested]

/-- Exactly the suggested number of machines remain, the first ones in the order of their
names. -/
def ReachesSuggested (cloud : SqlVms) (current suggested : ℕ) : Prop :=
  (deleteHost (actionArgs current suggested) cloud).vms.length = suggested ∧
    (deleteHost (actionArgs current suggested) cloud).vms.Perm
      ((sortedInstances cloud.vms).take suggested)

/-- **Exactly when the suggested number is reached**: when it is two. -/
theorem reachesSuggested_iff {cloud : SqlVms} {current suggested : ℕ}
    (hsuggested : 2 ≤ suggested) (hlt : suggested < current) (hn : cloud.vms.length = current) :
    ReachesSuggested cloud current suggested ↔ suggested = 2 := by
  have hkept : keptCount cloud.vms.length = 2 := if_pos (by omega)
  have hlength := @length_deleteHost (actionArgs current suggested) rfl cloud
  rw [hkept] at hlength
  constructor
  · rintro ⟨h, -⟩
    omega
  · rintro rfl
    refine ⟨by omega, ?_⟩
    have hperm := @deleteHost_perm (actionArgs current 2) rfl cloud
    rwa [hkept] at hperm

/-- Four SQL machines. -/
def fourVms : SqlVms where
  vms := [⟨"vm-a", "mysql-sql10"⟩, ⟨"vm-b", "mysql-sql9"⟩, ⟨"vm-c", "mysql-sql2"⟩,
    ⟨"vm-d", "mysql-sql1"⟩]
  nodup := by decide

/-- Two nodes are suggested, and two remain. -/
theorem reachesSuggested_two : ReachesSuggested fourVms 4 2 :=
  (reachesSuggested_iff (by decide) (by decide) rfl).mpr rfl

/-- Three nodes are suggested, and two remain. -/
theorem misses_three : ¬ ReachesSuggested fourVms 4 3 := by
  rintro ⟨h, -⟩
  rw [length_deleteHost rfl] at h
  exact absurd h (by decide)

/-! ### Repeated runs -/

/-- Some runs, one after the other. -/
def deleteHosts (cloud : SqlVms) (runs : List (List String)) : SqlVms :=
  runs.foldl (fun cloud argv => deleteHost argv cloud) cloud

/-- A run destroys machines, and starts none. -/
theorem length_deleteHost_le (argv : List String) (cloud : SqlVms) :
    (deleteHost argv cloud).vms.length ≤ cloud.vms.length := by
  unfold deleteHost
  split
  · exact List.length_filter_le _ _
  · exact Nat.le_refl _

/-- **Exactly when two machines remain after any number of runs**: when there is none, or one
that finds three machines at least. -/
theorem keepsTwo_iff {cloud : SqlVms} {runs : List (List String)}
    (hn : 2 ≤ cloud.vms.length) (hsql : ∀ argv ∈ runs, argv[1]? = some "sql") :
    2 ≤ (deleteHosts cloud runs).vms.length ↔
      runs = [] ∨ runs.length = 1 ∧ 3 ≤ cloud.vms.length := by
  cases runs with
  | nil => simpa [deleteHosts] using hn
  | cons argv runs =>
    rw [List.forall_mem_cons] at hsql
    have hfirst := length_deleteHost hsql.1 cloud
    cases runs with
    | nil =>
      show 2 ≤ (deleteHost argv cloud).vms.length ↔ _
      rw [hfirst, keptCount]
      split
      · simp
        omega
      · simp
        omega
    | cons argv' runs =>
      rw [List.forall_mem_cons] at hsql
      -- the second run finds two machines at most, and from then on there is one
      have hsecond := length_deleteHost hsql.2.1 (deleteHost argv cloud)
      have hone : (deleteHost argv' (deleteHost argv cloud)).vms.length ≤ 1 := by
        have hkept : keptCount (deleteHost argv cloud).vms.length = 1 := by
          refine if_neg ?_
          rw [hfirst, keptCount]
          split <;> omega
        rw [hsecond, hkept]
        exact Nat.min_le_left _ _
      have hrest : (deleteHosts (deleteHost argv' (deleteHost argv cloud)) runs).vms.length ≤ 1 :=
        Run.foldl_inv (I := fun c : SqlVms => c.vms.length ≤ 1)
          (fun c a h => Nat.le_trans (length_deleteHost_le a c) h) hone runs
      refine iff_of_false (fun h => ?_) (by simp)
      exact absurd (Nat.le_trans h hrest) (by decide)

/-- A run of the action, on four machines. -/
theorem keepsTwo_four : 2 ≤ (deleteHosts fourVms [actionArgs 4 2]).vms.length :=
  (keepsTwo_iff (by decide) (by decide)).mpr (Or.inr ⟨rfl, by decide⟩)

/-- Two SQL machines. -/
def twoVms : SqlVms where
  vms := [⟨"vm-c", "mysql-sql2"⟩, ⟨"vm-d", "mysql-sql1"⟩]
  nodup := by decide

/-- A run destroys one of them. -/
theorem keepsOne_two :
    ¬ 2 ≤ (deleteHosts twoVms [["/script/delete_host.py", "sql"]]).vms.length := by
  show ¬ 2 ≤ (deleteHost ["/script/delete_host.py", "sql"] twoVms).vms.length
  rw [length_deleteHost rfl]
  decide

end BkPlatform.Mysql
