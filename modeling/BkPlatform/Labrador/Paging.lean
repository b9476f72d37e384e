import BkPlatform.Lib.Pages
import BkPlatform.Labrador.Rows

/-!
# Paging through a collection

The browser shows a collection page by page, and every page is a query of its own.  The MySQL,
Postgres and SQLite adapters order the rows by one column, the one that was asked for or the
key, and leave out those of the pages before; rows with the same value in that column may come
in another order in the next query.  The adapter for Cassandra takes a limit only: its queries
have no order, and leave nothing out.

## Main definitions

* `Options`, `Query`, `Store.find` — the queries.
* `Server` — how a database orders values.
* `ShowsOnce` — all pages together show every row once.
* `Pageable` — the condition on the collection.

## Main results

* `showsOnce_iff` — **exactly when every row is shown once.**
* `showsOnce_of_key` — it is where the order tells all rows apart.
-/

namespace BkPlatform.Labrador.Paging

open Pages Rows

/-! ### Queries -/

/-- `direction`. -/
inductive Direction
  | asc
  | desc
  deriving DecidableEq, Repr

/-- The options of `find`. -/
structure Options where
  limit : Option ℕ := none
  skip : Option ℕ := none
  orderBy : Option String := none
  direction : Option Direction := none
  deriving DecidableEq, Repr

/-- What a statement asks for besides the collection: `ORDER BY`, `LIMIT` and `OFFSET`. -/
structure Query where
  orderBy : Option (String × Direction)
  limit : ℕ
  offset : ℕ
  deriving DecidableEq, Repr

/-- `Configuration::DEFAULT_LIMIT`. -/
def defaultLimit : ℕ := 10

/-- `find` of a relational adapter; `primaryKey` is what `primary_key_for` returns. -/
def relationalFind (primaryKey : Option String) (o : Options) : Query where
  orderBy := (o.orderBy.or primaryKey).map fun column => (column, o.direction.getD .asc)
  limit := o.limit.getD defaultLimit
  offset := o.skip.getD 0

/-- `MongoDB#find`, which asks Cassandra. -/
def mongoDBFind (o : Options) : Query where
  orderBy := none
  limit := o.limit.getD 50
  offset := 0

/-- The adapters. -/
inductive Store
  | mysql
  | postgres
  | sqlite
  | mongoDB
  deriving DecidableEq, Repr

/-- `find`. -/
def Store.find (store : Store) (primaryKey : Option String) (o : Options) : Query :=
  match store with
  | mysql => relationalFind primaryKey o
  | postgres => relationalFind primaryKey o
  | sqlite => relationalFind primaryKey o
  | mongoDB => mongoDBFind o

/-! ### Answers -/

variable {V : Type*}

/-- How a database orders the values of a column, NULL among them. -/
structure Server (V : Type*) where
  column : String → Comparison (Option V)

/-- How the rows are ordered. -/
def Server.comparison (server : Server V) : Option (String × Direction) → Comparison (Row V)
  | none => .indifferent
  | some (column, .asc) => (server.column column).comap fun row => cell row column
  | some (column, .desc) => (server.column column).reverse.comap fun row => cell row column

/-- The answer to a query, out of an order of the rows. -/
def Query.answer (q : Query) (order : List (Row V)) : List (Row V) :=
  (order.drop q.offset).take q.limit

/-- **All pages together show every row once**, whatever order each of the queries is answered
in, as soon as there are enough pages for the rows. -/
def ShowsOnce (server : Server V) (store : Store) (primaryKey orderBy : Option String)
    (direction : Option Direction) (rows : List (Row V)) (l : ℕ) : Prop :=
  let query : ℕ → Query := fun k =>
    store.find primaryKey
      { limit := some l, skip := some (k * l), orderBy := orderBy, direction := direction }
  ∀ orders : ℕ → List (Row V),
    (∀ k, (server.comparison (query k).orderBy).Arranges rows (orders k)) →
    ∀ n, rows.length ≤ n * l →
      ((List.range n).flatMap fun k => (query k).answer (orders k)).Perm rows

/-- The order of a relational adapter. -/
def Server.ordering (server : Server V) (primaryKey orderBy : Option String)
    (direction : Option Direction) : Comparison (Row V) :=
  server.comparison
    (relationalFind primaryKey { orderBy := orderBy, direction := direction }).orderBy

/-- The condition on the collection: rows that are tied in the order, and lie on both sides of
the end of a page, are equal; and where Cassandra is asked there is no row at all. -/
def Pageable (server : Server V) (store : Store) (primaryKey orderBy : Option String)
    (direction : Option Direction) (rows : List (Row V)) (l : ℕ) : Prop :=
  match store with
  | .mongoDB => rows = []
  | _ => (server.ordering primaryKey orderBy direction).Settled l rows

/-! ### When every row is shown once -/

variable {server : Server V} {store : Store} {primaryKey orderBy : Option String}
  {direction : Option Direction} {rows : List (Row V)} {l : ℕ}

/-- The pages of Cassandra are all the first one. -/
theorem showsOnce_mongoDB (hl : 1 ≤ l) :
    ShowsOnce server .mongoDB primaryKey orderBy direction rows l ↔ rows = [] := by
  constructor
  · intro h
    by_contra hne
    have hpos : 0 < rows.length := List.length_pos_iff.mpr hne
    have henough : rows.length ≤ (rows.length + 1) * l :=
      Nat.le_trans (Nat.le_succ _) (Nat.le_mul_of_pos_right _ hl)
    have harranges : (Comparison.indifferent : Comparison (Row V)).Arranges rows rows :=
      ⟨List.Perm.refl _, List.pairwise_of_forall fun _ _ => rfl⟩
    have hperm := h (fun _ => rows) (fun _ => harranges) (rows.length + 1) henough
    -- one page more than there are rows, with one row each at least
    have hlength : (rows.length + 1) * min l rows.length = rows.length := by
      have hcount := hperm.length_eq
      rw [List.length_flatMap] at hcount
      simpa [Query.answer, Store.find, mongoDBFind] using hcount
    have hmin : 1 ≤ min l rows.length := by omega
    have hmore : rows.length + 1 ≤ (rows.length + 1) * min l rows.length :=
      Nat.le_mul_of_pos_right _ hmin
    omega
  · rintro rfl orders horders n hn
    have hnone : ∀ k, orders k = [] := fun k => List.Perm.eq_nil (horders k).perm
    simp [hnone, Query.answer]

/-- The pages of the others are those of an order. -/
theorem showsOnce_relational (hstore : store ≠ .mongoDB) :
    ShowsOnce server store primaryKey orderBy direction rows l ↔
      (server.ordering primaryKey orderBy direction).Complete l rows := by
  cases store with
  | mongoDB => exact absurd rfl hstore
  | mysql => exact Iff.rfl
  | postgres => exact Iff.rfl
  | sqlite => exact Iff.rfl

/-- **Exactly when every row is shown once.** -/
theorem showsOnce_iff (server : Server V) (store : Store) (primaryKey orderBy : Option String)
    (direction : Option Direction) (rows : List (Row V)) (hl : 1 ≤ l) :
    ShowsOnce server store primaryKey orderBy direction rows l ↔
      Pageable server store primaryKey orderBy direction rows l := by
  cases store with
  | mongoDB => exact showsOnce_mongoDB hl
  | mysql => exact (showsOnce_relational (by decide)).trans (Comparison.complete_iff hl)
  | postgres => exact (showsOnce_relational (by decide)).trans (Comparison.complete_iff hl)
  | sqlite => exact (showsOnce_relational (by decide)).trans (Comparison.complete_iff hl)

/-- Where the order tells all rows apart, a relational adapter shows every row once. -/
theorem showsOnce_of_key (hstore : store ≠ .mongoDB) (hl : 1 ≤ l)
    (h : ∀ a ∈ rows, ∀ c ∈ rows, (server.ordering primaryKey orderBy direction).le a c = true →
      (server.ordering primaryKey orderBy direction).le c a = true → a = c) :
    ShowsOnce server store primaryKey orderBy direction rows l :=
  (showsOnce_relational hstore).mpr
    ((Comparison.complete_iff hl).mpr (Comparison.settled_of_antisymm h))

/-! ### Users and their ages -/

/-- Numbers in their order. -/
def numbers : Comparison ℕ where
  le m n := decide (m ≤ n)
  trans m n k hmn hnk :=
    decide_eq_true (Nat.le_trans (of_decide_eq_true hmn) (of_decide_eq_true hnk))
  total m n := by simpa using Nat.le_total m n

/-- Columns of numbers, with NULL in front. -/
def plainServer : Server ℕ where
  column _ := numbers.comap fun v => v.elim 0 Nat.succ

/-- Three users, of whom two are of one age. -/
def users : List (Row ℕ) :=
  [[("id", some 1), ("age", some 30)], [("id", some 2), ("age", some 30)],
    [("id", some 3), ("age", some 40)]]

/-- By their numbers, one on a page. -/
theorem showsOnce_users : ShowsOnce plainServer .mysql (some "id") none none users 1 :=
  (showsOnce_iff plainServer .mysql (some "id") none none users (by decide)).mpr
    (Comparison.settled_of_antisymm (by decide))

/-- By their ages, one on a page: the first two may be swapped from the first page to the second;
and where Cassandra is asked, the first page comes again and again. -/
theorem not_showsOnce_users :
    ¬ ShowsOnce plainServer .mysql (some "id") (some "age") none users 1 ∧
    ¬ ShowsOnce plainServer .mongoDB (some "id") none none users 1 := by
  rw [showsOnce_iff _ _ _ _ _ _ (by decide), showsOnce_iff _ _ _ _ _ _ (by decide)]
  refine ⟨fun h => ?_, fun h : users = [] => absurd h (by decide)⟩
  have heq := h [("id", some 1), ("age", some 30)] (by decide)
    [("id", some 2), ("age", some 30)] (by decide) (by decide) (by decide) 1 (by decide)
    (by decide)
  exact absurd heq (by decide)

end BkPlatform.Labrador.Paging
