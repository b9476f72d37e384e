import BkPlatform.Lib.RubyString
import Mathlib.Data.List.Basic

/-!
# Metadata of Cassandra

The adapter for Cassandra reads what it needs to know of a table from two tables of the system,
which hold the tables of all keyspaces.  The list of the tables is asked for the keyspace it is
connected to; the key and the columns of a table are asked for its name only.  Where another
keyspace has a table of that name, its columns come along, and the key may be the other one's.

## Main definitions

* `Keyspace`, `Cluster` — the keyspaces, and the one of the connection.
* `collections`, `primaryKeyFor`, `schema` — what is read.
* `SameMetadata`, `Alone` — two states give the same answers; no other keyspace has the table.

## Main results

* `collections_eq` — the list depends on the keyspace of the connection only.
* `sameMetadata_iff` — when the metadata do, too.
* `metadata_iff` — **exactly when they do**, and that others can see to it that they do not.
-/

namespace BkPlatform.Labrador.Keyspaces

/-! ### Keyspaces -/

/-- A row of `system.schema_columns`, but for the names of keyspace and table. -/
structure Column where
  columnName : String
  componentIndex : Option ℤ
  type : String
  deriving DecidableEq, Repr

/-- A table: `key_aliases`, and its columns, of which the key is one at least. -/
structure ColumnFamily where
  name : String
  keyAliases : String
  columns : List Column
  ne : columns ≠ []

structure Keyspace where
  name : String
  columnFamilies : List ColumnFamily

/-- The keyspaces of a cluster, seen from a connection. -/
structure Cluster where
  connected : Keyspace
  others : List Keyspace
  name_ne : ∀ k ∈ others, k.name ≠ connected.name

section Queries

-- where a keyspace has its place among the others: a hash of its name
variable (token : String → ℤ)

/-- The keyspaces as the tables of the system list them. -/
def Cluster.keyspaces (c : Cluster) : List Keyspace :=
  (c.connected :: c.others).mergeSort fun k k' => decide (token k.name ≤ token k'.name)

/-- `SELECT columnfamily_name … WHERE keyspace_name = '#{database}'`. -/
def collections (c : Cluster) : List String :=
  (c.keyspaces token).flatMap fun k =>
    if k.name = c.connected.name then k.columnFamilies.map ColumnFamily.name else []

/-- The tables of a keyspace that `WHERE columnfamily_name = '#{collection}'` finds. -/
def Keyspace.named (k : Keyspace) (collection : String) : List ColumnFamily :=
  k.columnFamilies.filter fun cf => cf.name = collection

/-- The tables of the cluster it finds. -/
def Cluster.named (c : Cluster) (collection : String) : List ColumnFamily :=
  (c.keyspaces token).flatMap fun k => k.named collection

/-- `primary_key_for`. -/
def primaryKeyFor (c : Cluster) (collection : String) : String :=
  let names := (c.named token collection).map ColumnFamily.keyAliases
  RubyString.delete "\"]" (RubyString.delete "[\"" (names.head?.getD ""))

/-- `schema`. -/
def schema (c : Cluster) (collection : String) : List Column :=
  (c.named token collection).flatMap ColumnFamily.columns

/-! ### What the answers depend on -/

/-- Both states give the same metadata of the table. -/
def SameMetadata (c c' : Cluster) (collection : String) : Prop :=
  primaryKeyFor token c collection = primaryKeyFor token c' collection ∧
    schema token c collection = schema token c' collection

/-- No other keyspace has a table of that name. -/
def Cluster.Alone (c : Cluster) (collection : String) : Prop :=
  ∀ k ∈ c.others, k.named collection = []

end Queries

variable {token : String → ℤ} {c : Cluster} {collection : String}

/-- Of several lists, only one of which has elements, that one is left. -/
theorem flatMap_of_perm {α β : Type*} {f : α → List β} {a : α} {l as : List α}
    (hperm : l.Perm (a :: as)) (hnil : ∀ b ∈ as, f b = []) : l.flatMap f = f a := by
  obtain ⟨u, v, rfl⟩ := List.append_of_mem (hperm.mem_iff.mpr List.mem_cons_self)
  have hothers : (u ++ v).Perm as := (List.perm_middle.symm.trans hperm).cons_inv
  have hnone : ∀ {w : List α}, w ⊆ u ++ v → w.flatMap f = [] := fun hw =>
    List.flatMap_eq_nil_iff.mpr fun b hb => hnil b (hothers.subset (hw hb))
  rw [List.flatMap_append, List.flatMap_cons, hnone (List.subset_append_left u v),
    hnone (List.subset_append_right u v), List.nil_append, List.append_nil]

theorem keyspaces_perm : (c.keyspaces token).Perm (c.connected :: c.others) :=
  List.mergeSort_perm _ _

/-- **The list of the tables depends on the keyspace of the connection only.** -/
theorem collections_eq (token : String → ℤ) (c : Cluster) :
    collections token c = c.connected.columnFamilies.map ColumnFamily.name := by
  refine (flatMap_of_perm keyspaces_perm fun k hk => ?_).trans (if_pos rfl)
  exact if_neg (c.name_ne k hk)

/-- If no other keyspace has the table, it is found in that of the connection. -/
theorem named_of_alone (h : c.Alone collection) :
    c.named token collection = c.connected.named collection :=
  flatMap_of_perm keyspaces_perm h

theorem sameMetadata_of_alone {c' : Cluster} (hsame : c'.connected = c.connected)
    (h : c.Alone collection) (h' : c'.Alone collection) : SameMetadata token c c' collection := by
  have hnamed : c.named token collection = c'.named token collection := by
    rw [named_of_alone h, named_of_alone h', hsame]
  exact ⟨by rw [primaryKeyFor, primaryKeyFor, hnamed], by rw [schema, schema, hnamed]⟩

/-- How many columns are listed: those of the connection, and those of all others. -/
theorem length_schema : (schema token c collection).length =
    ((c.connected.named collection).flatMap ColumnFamily.columns).length +
      ((c.others.flatMap fun k => k.named collection).flatMap ColumnFamily.columns).length := by
  have hperm : (c.named token collection).Perm
      (c.connected.named collection ++ c.others.flatMap fun k => k.named collection) :=
    keyspaces_perm.flatMap_right _
  rw [schema, (hperm.flatMap_right _).length_eq, List.flatMap_append, List.length_append]

/-- The keyspace of the connection, and no other one. -/
def Cluster.only (k : Keyspace) : Cluster where
  connected := k
  others := []
  name_ne := fun _ h => absurd h List.not_mem_nil

theorem only_alone (k : Keyspace) : (Cluster.only k).Alone collection :=
  fun _ h => absurd h List.not_mem_nil

/-- The columns of a table of another keyspace make a difference. -/
theorem alone_of_schema (h : (schema token c collection).length ≤
    (schema token (Cluster.only c.connected) collection).length) : c.Alone collection := by
  rw [length_schema, length_schema] at h
  have hnone :
      (c.others.flatMap fun k => k.named collection).flatMap ColumnFamily.columns = [] := by
    refine List.eq_nil_of_length_eq_zero ?_
    simp only [Cluster.only, List.flatMap_nil, List.length_nil] at h
    omega
  intro k hk
  refine List.eq_nil_iff_forall_not_mem.mpr fun cf hcf => ?_
  refine cf.ne (List.flatMap_eq_nil_iff.mp hnone cf ?_)
  exact List.mem_flatMap.mpr ⟨k, hk, hcf⟩

/-- A state gives the same metadata as every one with that keyspace of the connection in which no
other keyspace has the table, exactly if it is such a state itself. -/
theorem sameMetadata_iff (token : String → ℤ) (c : Cluster) (collection : String) :
    (∀ c' : Cluster, c'.connected = c.connected → c'.Alone collection →
      SameMetadata token c c' collection) ↔ c.Alone collection := by
  constructor
  · intro h
    have hsame := h (.only c.connected) rfl (only_alone _)
    exact alone_of_schema (Nat.le_of_eq (congrArg List.length hsame.2))
  · exact fun h c' hsame h' => sameMetadata_of_alone hsame h h'

/-- A tenant with a table of that name. -/
def Cluster.withTable (k : Keyspace) (collection : String) : Cluster where
  connected := k
  others := [⟨k.name ++ "_", [⟨collection, "[\"id\"]", [⟨"id", none, "partition_key"⟩], by simp⟩]⟩]
  name_ne := by
    intro k' hk'
    rw [List.mem_singleton.mp hk']
    intro h
    have hlength := congrArg (fun s : String => s.toList.length) h
    simp at hlength

theorem not_alone_withTable (k : Keyspace) (collection : String) :
    ¬ (Cluster.withTable k collection).Alone collection := by
  intro h
  have hnamed := h _ List.mem_cons_self
  simp [Keyspace.named] at hnamed

/-- **Exactly when the metadata depend on the keyspace of the connection only.**  A state gives
the same as every one with that keyspace in which no other keyspace has the table, if it is such
a state itself; and as others may create a table, there are always two states with that keyspace
that do not give the same. -/
theorem metadata_iff (token : String → ℤ) :
    (∀ (c : Cluster) (collection : String),
      (∀ c' : Cluster, c'.connected = c.connected → c'.Alone collection →
        SameMetadata token c c' collection) ↔ c.Alone collection) ∧
    ∀ (k : Keyspace) (collection : String),
      ¬ ∀ c c' : Cluster, c.connected = k → c'.connected = k →
        SameMetadata token c c' collection := by
  refine ⟨sameMetadata_iff token, fun k collection h => ?_⟩
  refine not_alone_withTable k collection ((sameMetadata_iff token _ collection).mp ?_)
  exact fun c' hc' _ => h _ c' rfl hc'

/-- A keyspace with users, who are known by their mail addresses. -/
def shop : Keyspace where
  name := "shop"
  columnFamilies := [⟨"users", "[\"email\"]", [⟨"email", none, "partition_key"⟩], by simp⟩]

/-- Another tenant has users, too, and comes first: his key is taken for the key of the table. -/
theorem not_sameMetadata_users :
    primaryKeyFor (fun name => -name.length) (.only shop) "users" = "email" ∧
    primaryKeyFor (fun name => -name.length) (.withTable shop "users") "users" = "id" ∧
    ¬ SameMetadata (fun name => -name.length) (.only shop) (.withTable shop "users") "users" := by
  have hone : (Cluster.only shop).keyspaces (fun name => -name.length) = [shop] :=
    List.mergeSort_singleton _
  have htwo : (Cluster.withTable shop "users").keyspaces (fun name => -name.length) =
      (Cluster.withTable shop "users").others ++ [shop] := by
    have hlt : "shop".length < "shop_".length := by decide
    simp [Cluster.keyspaces, Cluster.withTable, shop, List.mergeSort, hlt]
  have hshop : primaryKeyFor (fun name => -name.length) (.only shop) "users" = "email" := by
    rw [primaryKeyFor, Cluster.named, hone]
    decide
  have hother : primaryKeyFor (fun name => -name.length) (.withTable shop "users") "users" =
      "id" := by
    rw [primaryKeyFor, Cluster.named, htwo]
    decide
  refine ⟨hshop, hother, fun h => ?_⟩
  have hkey := h.1
  rw [hshop, hother] at hkey
  exact absurd hkey (by decide)

end BkPlatform.Labrador.Keyspaces
