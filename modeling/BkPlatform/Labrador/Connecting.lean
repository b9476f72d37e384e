import BkPlatform.Labrador.Adapter

/-!
# What `connect` returns

The callers of `connect` go by its value and by the errors of the adapter.  Both tell the truth
as long as the name of the adapter is a key of `@@connections` and the cache does not hold a
closed session that cannot be opened again: `@@connections[name]` of another name is nil,
on which `[]` is called outside of the `begin`, and an exception of the driver leaves
`@database` with the closed session, which is then the value of the last assignment.

## Main definitions

* `Returned`, `connectValue` — the value of `connect`.
* `Honest` — it returns, a true value exactly if the adapter is connected, and appends an error
  if it is not.

## Main results

* `honest_iff` — **exactly when this is so.**
-/

namespace BkPlatform.Labrador

variable {ι : Type*} [DecidableEq ι]

/-- What a call comes to. -/
inductive Returned
  /-- `NoMethodError`: `[]` is called on nil. -/
  | raised
  | nil
  | true
  | session (n : ℕ)
  deriving DecidableEq, Repr

/-- Neither nil nor an exception. -/
def Returned.truthy : Returned → Bool
  | raised => false
  | nil => false
  | .true => Bool.true
  | session _ => Bool.true

/-- The value of `connect`: that of its last assignment, if it comes to it. -/
def connectValue (expandPath : String → String) (adapter : ι → Adapter) (s : Process ι) (i : ι)
    (failure : Option String) : Returned :=
  match (adapter i).configuration with
  | none => .nil
  | some _ =>
    match (adapter i).key with
    | none => .raised
    | some key =>
      if s.connected (s.connections key) then .true
      else
        match (connect expandPath adapter s i failure).database i with
        | some n => .session n
        | none => .nil

/-- `connect` returns, a true value exactly if the adapter is connected afterwards, and appends
an error if it is not. -/
def Honest (expandPath : String → String) (adapter : ι → Adapter) (s : Process ι) (i : ι)
    (failure : Option String) : Prop :=
  let t := connect expandPath adapter s i failure
  let value := connectValue expandPath adapter s i failure
  value ≠ .raised ∧ (value.truthy = true ↔ t.connected (t.database i) = true) ∧
    (t.connected (t.database i) = false → ∃ message, t.errors i = s.errors i ++ [message])

/-- The driver opens a session. -/
def Opens (expandPath : String → String) (a : Adapter) (failure : Option String) : Prop :=
  failure = none ∧ (ownCredentials expandPath a).isSome = true

variable {expandPath : String → String} {adapter : ι → Adapter}

/-- A live session is taken from the cache. -/
theorem connect_live {s : Process ι} {i : ι} {key : String × Option String}
    (hkey : (adapter i).key = some key) (hlive : s.connected (s.connections key) = true)
    (failure : Option String) :
    connect expandPath adapter s i failure = s.setDatabase i (s.connections key) := by
  have hset : (s.setDatabase i (s.connections key)).connected (s.connections key) = true := hlive
  simp [connect, hkey, hset]

/-- Otherwise a session is to be opened. -/
theorem connect_dead {s : Process ι} {i : ι} {key : String × Option String}
    (hkey : (adapter i).key = some key) (hdead : s.connected (s.connections key) = false)
    (failure : Option String) :
    connect expandPath adapter s i failure =
      openSession expandPath adapter (s.setDatabase i (s.connections key)) i key failure := by
  have hset : (s.setDatabase i (s.connections key)).connected (s.connections key) = false := hdead
  simp [connect, hkey, hset]

/-- The driver opens a session, which is connected. -/
theorem connect_opens {s : Process ι} {i : ι} {key : String × Option String}
    (hkey : (adapter i).key = some key) (hdead : s.connected (s.connections key) = false)
    {failure : Option String} (hopens : Opens expandPath (adapter i) failure) :
    let t := connect expandPath adapter s i failure
    t.database i = some s.sessions.length ∧ t.connected (t.database i) = true := by
  obtain ⟨rfl, hown⟩ := hopens
  obtain ⟨c, hc⟩ := Option.isSome_iff_exists.mp hown
  have hopened : connect expandPath adapter s i none =
      (((s.setDatabase i (s.connections key)).open c).setDatabase i (some s.sessions.length)).cache
        key (some s.sessions.length) := by
    rw [connect_dead hkey hdead, openSession.eq_def, hc]
    rfl
  have hdatabase : (connect expandPath adapter s i none).database i = some s.sessions.length := by
    rw [hopened]
    exact Function.update_self i _ _
  refine ⟨hdatabase, ?_⟩
  rw [hdatabase, connected_iff, hopened]
  exact ⟨⟨c, true⟩, session_open s c, rfl⟩

/-- The driver raises: the dead session stays `@database`, and an error is appended. -/
theorem connect_fails {s : Process ι} {i : ι} {key : String × Option String}
    (hkey : (adapter i).key = some key) (hdead : s.connected (s.connections key) = false)
    {failure : Option String} (hfails : ¬ Opens expandPath (adapter i) failure) :
    let t := connect expandPath adapter s i failure
    t.database i = s.connections key ∧ t.connected (t.database i) = false ∧
      ∃ message, t.errors i = s.errors i ++ [message] := by
  let stale := s.setDatabase i (s.connections key)
  have hdatabase : stale.database i = s.connections key := Function.update_self i _ _
  have hraised : ∃ message, connect expandPath adapter s i failure =
      (stale.addError i message).cache key (stale.database i) := by
    rw [connect_dead hkey hdead, openSession.eq_def]
    cases failure with
    | some message => exact ⟨message, rfl⟩
    | none =>
      cases hown : ownCredentials expandPath (adapter i) with
      | none => exact ⟨_, rfl⟩
      | some c => exact absurd ⟨rfl, by rw [hown]; rfl⟩ hfails
  obtain ⟨message, hraised⟩ := hraised
  rw [hraised]
  refine ⟨hdatabase, ?_, message, Function.update_self i _ _⟩
  show s.connected (stale.database i) = false
  rw [hdatabase, hdead]

/-! ### What the callers get -/

theorem exists_configuration {a : Adapter} {key : String × Option String} (h : a.key = some key) :
    ∃ c, a.configuration = some c := by
  cases hconf : a.configuration with
  | some c => exact ⟨c, rfl⟩
  | none => simp [Adapter.key, Adapter.name, hconf] at h

/-- The value where the session in the cache is alive. -/
theorem connectValue_live {s : Process ι} {i : ι} {key : String × Option String}
    (hkey : (adapter i).key = some key) (hlive : s.connected (s.connections key) = true)
    (failure : Option String) : connectValue expandPath adapter s i failure = .true := by
  obtain ⟨c, hconf⟩ := exists_configuration hkey
  simp [connectValue, hconf, hkey, hlive]

/-- The value where it is not, or there is none: what `@database` is left with. -/
theorem connectValue_dead {s : Process ι} {i : ι} {key : String × Option String}
    (hkey : (adapter i).key = some key) (hdead : s.connected (s.connections key) = false)
    (failure : Option String) :
    connectValue expandPath adapter s i failure =
      match (connect expandPath adapter s i failure).database i with
      | some n => .session n
      | none => .nil := by
  obtain ⟨c, hconf⟩ := exists_configuration hkey
  simp only [connectValue, hconf, hkey, hdead]
  rfl

/-- A true value of a connected adapter. -/
theorem honest_of_connected {s : Process ι} {i : ι} {failure : Option String}
    (htruthy : (connectValue expandPath adapter s i failure).truthy = true)
    (hconnected : (connect expandPath adapter s i failure).connected
      ((connect expandPath adapter s i failure).database i) = true) :
    Honest expandPath adapter s i failure := by
  refine ⟨fun hraised => ?_, iff_of_true htruthy hconnected, fun hnot => ?_⟩
  · rw [hraised] at htruthy
    cases htruthy
  · rw [hconnected] at hnot
    cases hnot

/-- A name that is no key of `@@connections`: it raises, or there is no configuration, and then
there is no error either. -/
theorem not_honest_of_key_none {s : Process ι} {i : ι} (hkey : (adapter i).key = none)
    (failure : Option String) : ¬ Honest expandPath adapter s i failure := by
  rintro ⟨hreturns, htruthy, herror⟩
  have hsame : connect expandPath adapter s i failure = s := by simp [connect, hkey]
  cases hconf : (adapter i).configuration with
  | some c => exact hreturns (by simp [connectValue, hconf, hkey])
  | none =>
    have hvalue : connectValue expandPath adapter s i failure = .nil := by
      simp [connectValue, hconf]
    rw [hvalue, hsame] at htruthy
    rw [hsame] at herror
    cases hconnected : s.connected (s.database i) with
    | true => exact absurd (htruthy.mpr hconnected) (by decide)
    | false =>
      obtain ⟨message, hmessage⟩ := herror hconnected
      have hlength := congrArg List.length hmessage
      simp at hlength

/-- A live session is returned as such. -/
theorem honest_of_live {s : Process ι} {i : ι} {key : String × Option String}
    (hkey : (adapter i).key = some key) (hlive : s.connected (s.connections key) = true)
    (failure : Option String) : Honest expandPath adapter s i failure := by
  refine honest_of_connected (by rw [connectValue_live hkey hlive]; rfl) ?_
  rw [connect_live hkey hlive]
  show s.connected (Function.update s.database i (s.connections key) i) = true
  rw [Function.update_self, hlive]

/-- So is a new one. -/
theorem honest_of_opens {s : Process ι} {i : ι} {key : String × Option String}
    (hkey : (adapter i).key = some key) (hdead : s.connected (s.connections key) = false)
    {failure : Option String} (hopens : Opens expandPath (adapter i) failure) :
    Honest expandPath adapter s i failure := by
  obtain ⟨hdatabase, hconnected⟩ := connect_opens hkey hdead hopens
  refine honest_of_connected ?_ hconnected
  rw [connectValue_dead hkey hdead, hdatabase]
  rfl

/-- Where the driver raises, the value is false exactly if nothing was cached. -/
theorem honest_iff_of_fails {s : Process ι} {i : ι} {key : String × Option String}
    (hkey : (adapter i).key = some key) (hdead : s.connected (s.connections key) = false)
    {failure : Option String} (hfails : ¬ Opens expandPath (adapter i) failure) :
    Honest expandPath adapter s i failure ↔ s.connections key = none := by
  obtain ⟨hdatabase, hconnected, herror⟩ := connect_fails hkey hdead hfails
  have hvalue := @connectValue_dead ι _ expandPath adapter s i key hkey hdead failure
  rw [hdatabase] at hvalue
  cases hcached : s.connections key with
  | none =>
    rw [hcached] at hvalue
    refine iff_of_true ⟨?_, ?_, fun _ => herror⟩ rfl
    · simp [hvalue]
    · refine iff_of_false (by simp [hvalue, Returned.truthy]) ?_
      simp [hconnected]
  | some n =>
    -- the closed session is the value
    rw [hcached] at hvalue
    refine iff_of_false ?_ (by simp)
    rintro ⟨_, htruthy, _⟩
    rw [hvalue, hconnected] at htruthy
    exact absurd (htruthy.mp rfl) (by decide)

variable (expandPath adapter) in
/-- **`connect` is honest exactly if** the name of the adapter is a key of `@@connections` and
the cache holds no session, or a live one, or the driver opens a new one. -/
theorem honest_iff (s : Process ι) (i : ι) (failure : Option String) :
    Honest expandPath adapter s i failure ↔
      ∃ key, (adapter i).key = some key ∧ (s.connections key = none ∨
        s.connected (s.connections key) = true ∨ Opens expandPath (adapter i) failure) := by
  cases hkey : (adapter i).key with
  | none => exact iff_of_false (not_honest_of_key_none hkey failure) (by simp)
  | some key =>
    have hcondition : (∃ key', some key = some key' ∧ (s.connections key' = none ∨
          s.connected (s.connections key') = true ∨ Opens expandPath (adapter i) failure)) ↔
        s.connections key = none ∨ s.connected (s.connections key) = true ∨
          Opens expandPath (adapter i) failure := by
      simp
    rw [hcondition]
    cases hlive : s.connected (s.connections key) with
    | true => exact iff_of_true (honest_of_live hkey hlive failure) (Or.inr (Or.inl rfl))
    | false =>
      by_cases hopens : Opens expandPath (adapter i) failure
      · exact iff_of_true (honest_of_opens hkey hlive hopens) (Or.inr (Or.inr hopens))
      · rw [honest_iff_of_fails hkey hlive hopens]
        simp [hopens]

/-! ### A session that has been closed -/

/-- The adapter of the database shop. -/
def shopAdapter : Unit → Adapter := fun _ =>
  ⟨some [(.str "adapter", some "mysql"), (.str "host", some "10.0.0.5"),
    (.str "database", some "shop")], "shop"⟩

/-- A process that keeps a session the server has dropped. -/
def droppedSession : Process Unit where
  connections := fun _ => some 0
  sessions := [⟨credentials [], false⟩]
  database := fun _ => none
  errors := fun _ => []

/-- The server cannot be reached again: `connect` returns the closed session. -/
theorem not_honest_droppedSession :
    ¬ Honest id shopAdapter droppedSession () (some "Can't connect to MySQL server") := by
  rintro ⟨_, htruthy, _⟩
  exact absurd htruthy (by decide)

end BkPlatform.Labrador
