import BkPlatform.Lib.CheckThenAct
import BkPlatform.Cas.Tickets

/-!
# Validations at the same time

A validation finds the row, tests what it has found, and writes the row back as
consumed.  Between these steps other validations of the same ticket may take
theirs: nothing in the write asks whether the ticket is still unconsumed.  So a
ticket is accepted at most once as long as nobody finds it unconsumed while
somebody else who has found it so has yet to consume it
(`acceptedOnce_of_loneFind`), and can be accepted twice otherwise
(`accepted_twice`).

Both kinds of tickets are validated in this way; what is different between them
is the finder and the test.

## Main definitions

* `Validation`, `serviceValidation`, `loginValidation` — the finder and the test.
* `Call`, `Shared`, `Step`, `step` — the calls and the table between them.
* `LoneFind` — the condition on a find.

## Main results

* `acceptedOnce_of_loneFind` — **each ticket is accepted at most once.**
* `both_accepted_of_overlap` — two calls that have both found it unconsumed can both be.
* `run_validateServiceTicket`, `run_validateLoginTicket` — a validator is the three
  steps of a call, one after the other.
-/

namespace BkPlatform.Cas

open Run CheckThenAct

/-! ### Calls and their steps -/

/-- A row has been found, and it is not consumed. -/
def isOpen {ρ : Type} [Consumable ρ] (found : Option ρ) : Bool :=
  found.any fun row => !isConsumed row

/-- The validation of the tickets of one string: which rows the finder chooses from,
whether a call looks for one at all, and the test.  Only an unconsumed row passes. -/
structure Validation (ρ κ ε : Type) [Consumable ρ] (key : ρ → ℕ) where
  isNamed : ρ → Bool
  looks : κ → Bool
  error : κ → ℤ → Option ρ → Option ε
  isNamed_consume : ∀ now row, isNamed (Consumable.consume now row) = isNamed row
  key_consume : ∀ now row, key (Consumable.consume now row) = key row
  isOpen_of_none : ∀ args now found, error args now found = none → isOpen found = true

/-- `validate_service_ticket`, called with a service and `allow_proxy_tickets`. -/
def serviceValidation (config : Config) (ticket : String) :
    Validation SPTicket (Option String × Bool) Error SPTicket.id where
  isNamed := SPTicket.isNamed ticket
  looks := fun args => args.1.isSome
  error := fun args now found => serviceTicketError config now args.1 (some ticket) found args.2
  isNamed_consume := fun _ _ => rfl
  key_consume := fun _ _ => rfl
  isOpen_of_none := fun args now found hnone => by
    obtain ⟨-, s, row, -, rfl, hopen, -⟩ := serviceTicketError_eq_none.mp hnone
    simp [isOpen, hopen]

/-- `validate_login_ticket`. -/
def loginValidation (config : Config) (ticket : String) :
    Validation LoginTicket Unit Message LoginTicket.id where
  isNamed := LoginTicket.isNamed ticket
  looks := fun _ => true
  error := fun _ now found => loginTicketError config now (some ticket) found
  isNamed_consume := fun _ _ => rfl
  key_consume := fun _ _ => rfl
  isOpen_of_none := fun _ now found hnone => by
    obtain ⟨-, row, rfl, hopen, -⟩ := loginTicketError_eq_none.mp hnone
    simp [isOpen, hopen]

/-- Where a call stands, with its copy of the row found. -/
inductive Call (ρ ε : Type)
  | ready
  | found (copy : Option ρ)
  | tested (copy : Option ρ) (error : Option ε)
  | returned (error : Option ε)
  deriving DecidableEq, Repr

variable {ι ρ κ ε : Type} {key : ρ → ℕ}

/-- The table and the calls. -/
structure Shared (ι ρ ε : Type) (key : ρ → ℕ) where
  table : Table ρ key
  call : ι → Call ρ ε

/-- One step of a call, with the time of the clock. -/
inductive Step (ι : Type)
  | find (i : ι)
  | test (i : ι) (now : ℤ)
  | consume (i : ι) (now : ℤ)
  deriving DecidableEq, Repr

/-- The state before any call has begun. -/
def Shared.start (ι ε : Type) (table : Table ρ key) : Shared ι ρ ε key := ⟨table, fun _ => .ready⟩

/-- The call has returned without an error. -/
def Shared.Accepted (s : Shared ι ρ ε key) (i : ι) : Prop := s.call i = .returned none

instance [DecidableEq ρ] [DecidableEq ε] (s : Shared ι ρ ε key) (i : ι) :
    Decidable (s.Accepted i) := inferInstanceAs (Decidable (s.call i = .returned none))

variable [Consumable ρ] [DecidableEq ι]

/-- The row the finder finds. -/
def Validation.row (v : Validation ρ κ ε key) (table : Table ρ key) : Option ρ :=
  table.rows.find? v.isNamed

/-- `consume!` and `save!` of the copy: its row is written, whatever has happened to it. -/
def Validation.save (v : Validation ρ κ ε key) (table : Table ρ key) (now : ℤ) :
    Option ρ → Table ρ key
  | none => table
  | some copy =>
    table.modify (fun row => if key row = key copy then Consumable.consume now row else row)
      fun row => by
        split
        · exact v.key_consume now row
        · rfl

/-- The call moves on. -/
def Shared.put (s : Shared ι ρ ε key) (i : ι) (call : Call ρ ε) : Shared ι ρ ε key :=
  { s with call := Function.update s.call i call }

/-- The steps of a validation. -/
def step (v : Validation ρ κ ε key) (args : ι → κ) (s : Shared ι ρ ε key) :
    Step ι → Option (Shared ι ρ ε key)
  | .find i =>
    match s.call i with
    | .ready => some (s.put i (.found (if v.looks (args i) then v.row s.table else none)))
    | _ => none
  | .test i now =>
    match s.call i with
    | .found copy => some (s.put i (.tested copy (v.error (args i) now copy)))
    | _ => none
  | .consume i now =>
    match s.call i with
    | .tested copy error =>
      some ({ s with table := v.save s.table now copy }.put i (.returned error))
    | _ => none

/-! ### The race for a ticket -/

/-- A call is a party of the race while it has a copy that is not consumed. -/
def Call.phase : Call ρ ε → Phase
  | .ready => .idle
  | .found copy => if isOpen copy then .inside false else .done false
  | .tested copy error => if isOpen copy then .inside error.isNone else .done false
  | .returned error => .done error.isNone

/-- Nobody finds the ticket unconsumed while another call that has found it so has yet to
consume it. -/
def LoneFind (v : Validation ρ κ ε key) (args : ι → κ) (s : Shared ι ρ ε key) : Step ι → Prop
  | .find i => v.looks (args i) = true → isOpen (v.row s.table) = true →
      ∀ j, (s.call j).phase.isInside = false
  | _ => True

instance (v : Validation ρ κ ε key) (args : Bool → κ) (s : Shared Bool ρ ε key) (a : Step Bool) :
    Decidable (LoneFind v args s a) := by
  cases a <;> unfold LoneFind <;> infer_instance

/-- The race in a state. -/
def Shared.race (v : Validation ρ κ ε key) (s : Shared ι ρ ε key) : Race ι :=
  ⟨isOpen (v.row s.table), fun i => (s.call i).phase⟩

/-- What is known of a copy: its row is the one the finder finds, and a consumed copy
means a consumed row. -/
def Current (v : Validation ρ κ ε key) (table : Table ρ key) (copy : Option ρ) : Prop :=
  ∀ row, copy = some row → ∃ now, v.row table = some now ∧ key now = key row ∧
    (isConsumed row = true → isConsumed now = true)

/-- What is known of a call. -/
def Known (v : Validation ρ κ ε key) (table : Table ρ key) : Call ρ ε → Prop
  | .ready => True
  | .found copy => Current v table copy
  | .tested copy error => Current v table copy ∧ (error = none → isOpen copy = true)
  | .returned _ => True

/-- The finder finds the row it found before, consumed or not. -/
theorem row_save (v : Validation ρ κ ε key) (table : Table ρ key) (now : ℤ) (copy : Option ρ) :
    v.row (v.save table now copy) = (v.row table).map fun row =>
      if copy.any fun c => key row == key c then Consumable.consume now row else row := by
  cases copy with
  | none => simp [Validation.save]
  | some copy =>
    have hnamed : v.isNamed ∘ (fun row =>
        if key row = key copy then Consumable.consume now row else row) = v.isNamed := by
      funext row
      simp only [Function.comp_apply]
      split
      · exact v.isNamed_consume now row
      · rfl
    rw [Validation.row, Validation.save, Table.modify, List.find?_map, hnamed]
    simp [Validation.row]

/-- A write never makes the ticket unconsumed. -/
theorem Current.save {v : Validation ρ κ ε key} {table : Table ρ key} {copy : Option ρ}
    (h : Current v table copy) (now : ℤ) (written : Option ρ) :
    Current v (v.save table now written) copy := by
  intro row hrow
  obtain ⟨current, hcurrent, hkey, hconsumed⟩ := h row hrow
  rw [row_save, hcurrent]
  refine ⟨_, rfl, ?_, fun hrow => ?_⟩
  · dsimp only
    split
    · rw [v.key_consume]
      exact hkey
    · exact hkey
  · dsimp only
    split
    · exact isConsumed_consume now current
    · exact hconsumed hrow

theorem Known.save {v : Validation ρ κ ε key} {table : Table ρ key} {call : Call ρ ε}
    (h : Known v table call) (now : ℤ) (written : Option ρ) :
    Known v (v.save table now written) call := by
  cases call with
  | ready => trivial
  | found copy => exact Current.save h now written
  | tested copy error => exact ⟨h.1.save now written, h.2⟩
  | returned error => trivial

/-- The call that has just consumed its copy has closed the ticket. -/
theorem isOpen_save {v : Validation ρ κ ε key} {table : Table ρ key} {copy : Option ρ}
    (h : Current v table copy) (hcopy : copy.isSome = true) (now : ℤ) :
    isOpen (v.row (v.save table now copy)) = false := by
  obtain ⟨row, rfl⟩ := Option.isSome_iff_exists.mp hcopy
  obtain ⟨current, hcurrent, hkey, -⟩ := h row rfl
  rw [row_save, hcurrent]
  simp [isOpen, hkey]

/-- A consumed copy is of a consumed ticket. -/
theorem isOpen_of_current {v : Validation ρ κ ε key} {table : Table ρ key} {copy : Option ρ}
    (h : Current v table copy) (hcopy : copy.isSome = true) (hopen : isOpen copy = false) :
    isOpen (v.row table) = false := by
  obtain ⟨row, rfl⟩ := Option.isSome_iff_exists.mp hcopy
  obtain ⟨current, hcurrent, -, hconsumed⟩ := h row rfl
  rw [hcurrent]
  have hrow : isConsumed row = true := by simpa [isOpen] using hopen
  simp [isOpen, hconsumed hrow]

/-- What is known of the calls stays known. -/
theorem known_step {v : Validation ρ κ ε key} {args : ι → κ} {s t : Shared ι ρ ε key} {a : Step ι}
    (h : ∀ j, Known v s.table (s.call j)) (hstep : step v args s a = some t) :
    ∀ j, Known v t.table (t.call j) := by
  have hput : ∀ (table : Table ρ key) (i : ι) (call : Call ρ ε),
      (∀ j, Known v table (s.call j)) → Known v table call →
      ∀ j, Known v table (Function.update s.call i call j) := by
    intro table i call hall hcall j
    rcases eq_or_ne j i with rfl | hne
    · rw [Function.update_self]
      exact hcall
    · rw [Function.update_of_ne hne]
      exact hall j
  cases a with
  | find i =>
    simp only [step] at hstep
    split at hstep
    · obtain rfl := Option.some.inj hstep
      -- the copy is the row that has just been found
      apply hput _ i _ h
      intro row hrow
      split at hrow
      · exact ⟨row, hrow, rfl, fun hconsumed => hconsumed⟩
      · cases hrow
    · cases hstep
  | test i now =>
    simp only [step] at hstep
    split at hstep
    · next copy hi =>
      obtain rfl := Option.some.inj hstep
      have hcopy : Known v s.table (s.call i) := h i
      rw [hi] at hcopy
      -- only an unconsumed copy passes the test
      exact hput _ i _ h ⟨hcopy, v.isOpen_of_none _ _ _⟩
    · cases hstep
  | consume i now =>
    simp only [step] at hstep
    split at hstep
    · next copy error hi =>
      obtain rfl := Option.some.inj hstep
      -- the write consumes a row, it does not bring one back
      exact hput _ i _ (fun j => (h j).save now copy) trivial
    · cases hstep

/-- **Every step is invisible to the race, or a move of it.**  A find is a check, a test
that passes wins, and the write leaves and closes. -/
theorem race_step {v : Validation ρ κ ε key} {args : ι → κ} {s t : Shared ι ρ ε key} {a : Step ι}
    (h : ∀ j, Known v s.table (s.call j)) (hlone : LoneFind v args s a)
    (hstep : step v args s a = some t) :
    t.race v = s.race v ∨ ∃ m, Alone (s.race v) m ∧ move (s.race v) m = some (t.race v) := by
  have hput : ∀ (table : Table ρ key) (i : ι) (call : Call ρ ε),
      (Shared.mk table s.call |>.put i call).race v =
        ⟨isOpen (v.row table), Function.update (s.race v).phase i call.phase⟩ := by
    intro table i call
    simp only [Shared.race, Shared.put, Race.mk.injEq, true_and]
    funext j
    rcases eq_or_ne j i with rfl | hne
    · simp
    · simp [Function.update_of_ne hne]
  have hsame : ∀ (i : ι) (p : Phase), (s.call i).phase = p →
      Function.update (s.race v).phase i p = (s.race v).phase := by
    rintro i _ rfl
    exact Function.update_eq_self i _
  cases a with
  | find i =>
    simp only [step] at hstep
    split at hstep
    · next hi =>
      obtain rfl := Option.some.inj hstep
      have hidle : (s.race v).phase i = .idle := by simp [Shared.race, hi, Call.phase]
      rw [hput]
      by_cases hlooks : v.looks (args i) = true
      · refine Or.inr ⟨.check i, fun hopen => hlone hlooks hopen, ?_⟩
        rw [move, if_pos hidle, if_pos hlooks]
        rfl
      · -- a call without a service or a ticket looks for no row
        refine Or.inr ⟨.skip i, trivial, ?_⟩
        rw [move, if_pos hidle, if_neg hlooks]
        rfl
    · cases hstep
  | test i now =>
    simp only [step] at hstep
    split at hstep
    · next copy hi =>
      obtain rfl := Option.some.inj hstep
      rw [hput]
      cases hopen : isOpen copy with
      | false =>
        -- the call had lost when it found its copy
        left
        rw [Call.phase, hopen, hsame i _ (by simp [hi, Call.phase, hopen])]
        rfl
      | true =>
        cases herror : v.error (args i) now copy with
        | some e =>
          -- too old, or for another service: still inside, since the copy is consumed all the same
          left
          rw [Call.phase, hopen, hsame i _ (by simp [hi, Call.phase, hopen])]
          rfl
        | none =>
          refine Or.inr ⟨.win i, trivial, ?_⟩
          rw [move, if_pos (by simp [Shared.race, hi, Call.phase, hopen])]
          simp [Shared.race, Call.phase, hopen]
    · cases hstep
  | consume i now =>
    simp only [step] at hstep
    split at hstep
    · next copy error hi =>
      obtain rfl := Option.some.inj hstep
      have hknown := h i
      rw [hi] at hknown
      obtain ⟨hcurrent, hpassed⟩ := hknown
      rw [hput]
      cases hopen : isOpen copy with
      | false =>
        -- the call has lost already: its copy is consumed, or it has none
        have herror : error.isNone = false := by
          cases error with
          | none => exact absurd (hpassed rfl) (by simp [hopen])
          | some e => rfl
        left
        rw [Call.phase, herror, hsame i _ (by simp [hi, Call.phase, hopen])]
        cases hcopy : copy with
        | none => rfl
        | some row =>
          subst hcopy
          have hclosed := isOpen_of_current hcurrent rfl hopen
          rw [isOpen_save hcurrent rfl now]
          simp [Shared.race, hclosed]
      | true =>
        -- the write closes the ticket, whether or not the call has passed the test
        have hcopy : copy.isSome = true := by
          cases copy with
          | none => simp [isOpen] at hopen
          | some row => rfl
        refine Or.inr ⟨.leave i true, trivial, ?_⟩
        have hinside : (s.race v).phase i = .inside error.isNone := by
          simp [Shared.race, hi, Call.phase, hopen]
        simp only [move, hinside]
        rw [isOpen_save hcurrent hcopy now]
        simp [Call.phase]
    · cases hstep

/-- At most one call returns without an error, in every run of lone finds. -/
theorem accepted_unique {v : Validation ρ κ ε key} {args : ι → κ} {table : Table ρ key}
    {as : List (Step ι)} {t : Shared ι ρ ε key}
    (hlone : Along (step v args) (LoneFind v args) (.start ι ε table) as)
    (hrun : exec (step v args) (.start ι ε table) as = some t) {i j : ι}
    (hi : t.Accepted i) (hj : t.Accepted j) : i = j := by
  -- what is known of the calls carries the simulation by the race
  let I : Shared ι ρ ε key → Prop := fun s => ∀ j, Known v s.table (s.call j)
  have hstart : I (.start ι ε table) := fun _ => trivial
  obtain ⟨ms, halone, hmoves⟩ := simulate (I := I) (Shared.race v)
    (fun _ _ _ h _ hstep => known_step h hstep)
    (fun _ _ _ h hlone hstep => race_step h hlone hstep) hstart hlone hrun
  have hwon : ∀ k, t.Accepted k → ((t.race v).phase k).hasWon = true := by
    intro k hk
    simp only [Shared.race]
    rw [hk]
    rfl
  exact winner_unique (fun _ => rfl) halone hmoves (hwon i hi) (hwon j hj)

/-! ### The validators -/

/-- The steps of one call. -/
def oneCall (i : ι) (now : ℤ) : List (Step ι) := [.find i, .test i now, .consume i now]

/-- One call, whose steps nobody comes between. -/
theorem exec_oneCall (v : Validation ρ κ ε key) (args : ι → κ) {s : Shared ι ρ ε key} {i : ι}
    (hi : s.call i = .ready) (now : ℤ) {found : Option ρ}
    (hfound : found = if v.looks (args i) then v.row s.table else none) :
    exec (step v args) s (oneCall i now) =
      some ({ s with table := v.save s.table now found }.put i
        (.returned (v.error (args i) now found))) := by
  subst hfound
  simp [oneCall, step, hi, Shared.put]

omit [Consumable ρ] in
/-- A single call has returned, and has written the table. -/
theorem put_start {table table' : Table ρ key} {error : Option ε} :
    ({ Shared.start Unit ε table with table := table' } : Shared Unit ρ ε key).put ()
      (.returned error) = ⟨table', fun _ => .returned error⟩ := by
  rw [Shared.put, Shared.mk.injEq]
  refine ⟨rfl, ?_⟩
  funext i
  exact Function.update_self i _ _

/-- The record of a validation touches the history only. -/
theorem run_logValidated (c : Context) (service : Option String) (st : SPTicket)
    (error : Option Error) (w : World) :
    ∃ history, Eff.run (logValidated c service st error) w =
      (.ok (), { w with history := history }) := by
  unfold logValidated
  split
  · exact ⟨_, rfl⟩
  · exact ⟨w.history, rfl⟩

/-- **One call of `validate_service_ticket` is its three steps**: the same error, and the
same tickets. -/
theorem run_validateServiceTicket (c : Context) (w : World) (service : Option String)
    (ticket : String) (allowProxyTickets : Bool) :
    ∃ st error w', Eff.run (validateServiceTicket c service (some ticket) allowProxyTickets) w =
        (.ok (st, error), w') ∧
      exec (step (serviceValidation c.config ticket) fun _ : Unit => (service, allowProxyTickets))
        (.start Unit Error w.serviceTickets) (oneCall () c.now) =
        some ⟨w'.serviceTickets, fun _ => .returned error⟩ := by
  have hfound : ticketFound w service (some ticket) =
      if (serviceValidation c.config ticket).looks (service, allowProxyTickets) then
        (serviceValidation c.config ticket).row w.serviceTickets else none := by
    cases service <;> rfl
  rw [exec_oneCall _ _ rfl c.now hfound, put_start]
  cases hst : ticketFound w service (some ticket) with
  | none =>
    refine ⟨none, _, w, ?_, rfl⟩
    simp only [validateServiceTicket, Eff.run_bind, Eff.run_get, hst, Eff.run_pure]
    rfl
  | some st =>
    let saved := (serviceValidation c.config ticket).save w.serviceTickets c.now (some st)
    let consumed : World := { w with serviceTickets := saved }
    obtain ⟨history, hlogged⟩ := run_logValidated c service (Consumable.consume c.now st)
      (serviceTicketError c.config c.now service (some ticket) (some st) allowProxyTickets) consumed
    have hconsumed : Eff.run (consumeServiceTicket c st) w =
        (.ok (Consumable.consume c.now st), consumed) := rfl
    refine ⟨some (Consumable.consume c.now st), _, { consumed with history := history }, ?_, rfl⟩
    simp only [validateServiceTicket, Eff.run_bind, Eff.run_get, hst, hconsumed, hlogged,
      Eff.run_pure]
    rfl

/-- **One call of `validate_login_ticket` is its three steps.** -/
theorem run_validateLoginTicket (c : Context) (w : World) (ticket : String) :
    ∃ error w', Eff.run (validateLoginTicket c (some ticket)) w = (.ok error, w') ∧
      exec (step (loginValidation c.config ticket) fun _ : Unit => ())
        (.start Unit Message w.loginTickets) (oneCall () c.now) =
        some ⟨w'.loginTickets, fun _ => .returned error⟩ := by
  have hfound : findLoginTicket w ticket =
      if (loginValidation c.config ticket).looks () then
        (loginValidation c.config ticket).row w.loginTickets else none := rfl
  rw [exec_oneCall _ _ rfl c.now hfound, put_start]
  cases hlt : findLoginTicket w ticket with
  | none =>
    refine ⟨_, w, ?_, rfl⟩
    simp only [validateLoginTicket, Eff.run_bind, Eff.run_get, Option.bind_some, hlt, consumeFound,
      Eff.run_pure]
    rfl
  | some lt =>
    let saved := (loginValidation c.config ticket).save w.loginTickets c.now (some lt)
    refine ⟨_, { w with loginTickets := saved }, ?_, rfl⟩
    simp only [validateLoginTicket, Eff.run_bind, Eff.run_get, Option.bind_some, hlt, consumeFound,
      consumeLoginTicket, Eff.run_modify, Eff.run_pure]
    rfl

/-! ### Every ticket once -/

/-- **A ticket is accepted at most once**: of any number of calls of
`validate_service_ticket` for one ticket string, in every order of their steps in which
nobody finds the ticket unconsumed while another call that has found it so has yet to
consume it, at most one returns without an error; and so for `validate_login_ticket`. -/
theorem acceptedOnce_of_loneFind (config : Config) (ticket : String) :
    (∀ (args : ι → Option String × Bool) (tickets : Table SPTicket SPTicket.id)
        (as : List (Step ι)) (t : Shared ι SPTicket Error SPTicket.id),
      Along (step (serviceValidation config ticket) args)
        (LoneFind (serviceValidation config ticket) args) (.start ι Error tickets) as →
      exec (step (serviceValidation config ticket) args) (.start ι Error tickets) as = some t →
      ∀ i j, t.Accepted i → t.Accepted j → i = j) ∧
    ∀ (tickets : Table LoginTicket LoginTicket.id) (as : List (Step ι))
        (t : Shared ι LoginTicket Message LoginTicket.id),
      Along (step (loginValidation config ticket) fun _ => ())
        (LoneFind (loginValidation config ticket) fun _ => ()) (.start ι Message tickets) as →
      exec (step (loginValidation config ticket) fun _ => ()) (.start ι Message tickets) as =
        some t →
      ∀ i j, t.Accepted i → t.Accepted j → i = j := by
  constructor
  · intro args tickets as t hlone hrun i j hi hj
    exact accepted_unique hlone hrun hi hj
  · intro tickets as t hlone hrun i j hi hj
    exact accepted_unique hlone hrun hi hj

/-! ### The condition is needed -/

omit [Consumable ρ] in
/-- A call that has been put somewhere is there, and the others are where they were. -/
theorem call_put (s : Shared ι ρ ε key) (i j : ι) (call : Call ρ ε) :
    (s.put i call).call j = if j = i then call else s.call j :=
  Function.update_apply s.call i call j

/-- Two calls that have both found the ticket unconsumed, and would pass the test, are both
accepted if neither writes before the other has tested. -/
theorem both_accepted_of_overlap (v : Validation ρ κ ε key) (args : ι → κ)
    {s : Shared ι ρ ε key} {i j : ι} (hij : i ≠ j) {copy copy' : Option ρ} {now now' : ℤ}
    (hi : s.call i = .found copy) (hj : s.call j = .found copy')
    (hpass : v.error (args i) now copy = none) (hpass' : v.error (args j) now' copy' = none) :
    ∃ t, exec (step v args) s [.test i now, .test j now', .consume i now, .consume j now'] =
        some t ∧ t.Accepted i ∧ t.Accepted j := by
  let s₁ := s.put i (.tested copy none)
  let s₂ := s₁.put j (.tested copy' none)
  let s₃ := { s₂ with table := v.save s₂.table now copy }.put i (.returned none)
  let s₄ := { s₃ with table := v.save s₃.table now' copy' }.put j (.returned none)
  have htest : step v args s (.test i now) = some s₁ := by
    simp only [step, hi, hpass, s₁]
  have htest' : step v args s₁ (.test j now') = some s₂ := by
    have hcall : s₁.call j = .found copy' := by rw [call_put, if_neg hij.symm, hj]
    simp only [step, hcall, hpass', s₂]
  have hconsume : step v args s₂ (.consume i now) = some s₃ := by
    have hcall : s₂.call i = .tested copy none := by
      rw [call_put, if_neg hij, call_put, if_pos rfl]
    simp only [step, hcall, s₃]
  have hconsume' : step v args s₃ (.consume j now') = some s₄ := by
    have hcall : s₃.call j = .tested copy' none := by
      rw [call_put, if_neg hij.symm]
      exact (call_put s₁ j j _).trans (if_pos rfl)
    simp only [step, hcall, s₄]
  refine ⟨s₄, ?_, ?_, ?_⟩
  · rw [exec_cons, htest, Option.bind_some, exec_cons, htest', Option.bind_some, exec_cons,
      hconsume, Option.bind_some, exec_cons, hconsume', Option.bind_some, exec_nil]
  · rw [Shared.Accepted, call_put, if_neg hij]
    exact (call_put _ i i _).trans (if_pos rfl)
  · rw [Shared.Accepted, call_put, if_pos rfl]

/-- A service ticket that has not been used. -/
def unusedTicket : SPTicket where
  id := 1
  ticket := "ST-1"
  service := "http://app.example"
  createdOn := 0
  consumed := none
  clientHostname := "10.0.0.7"
  username := "an"
  type := .serviceTicket
  grantedByPgtId := none
  grantedByTgtId := some 1

/-- A login ticket that has not been used. -/
def unusedLoginTicket : LoginTicket := ⟨1, "LT-1", 0, none, "10.0.0.7"⟩

/-- A table with one of them. -/
def oneTicket : Table SPTicket SPTicket.id := ⟨[unusedTicket], 2, by decide, by decide⟩

/-- A table with one of them. -/
def oneLoginTicket : Table LoginTicket LoginTicket.id :=
  ⟨[unusedLoginTicket], 2, by decide, by decide⟩

/-- Two calls for the service of the ticket. -/
def bothCalls : Bool → Option String × Bool := fun _ => (some "http://app.example", false)

/-- Both calls find the ticket before either of them consumes it. -/
def bothFind : List (Step Bool) :=
  [.find false, .find true, .test false 10, .test true 10, .consume false 10, .consume true 11]

/-- The second call begins when the first has returned. -/
def inTurn : List (Step Bool) := oneCall false 10 ++ oneCall true 11

/-- Two calls at the same time are both accepted, for a service ticket and for a login
ticket. -/
theorem accepted_twice :
    (¬ ∀ t, exec (step (serviceValidation plainConfig "ST-1") bothCalls)
        (.start Bool Error oneTicket) bothFind = some t →
      ∀ i j, t.Accepted i → t.Accepted j → i = j) ∧
    ¬ ∀ t, exec (step (loginValidation plainConfig "LT-1") fun _ : Bool => ())
        (.start Bool Message oneLoginTicket) bothFind = some t →
      ∀ i j, t.Accepted i → t.Accepted j → i = j := by
  constructor
  · intro hall
    have heq := hall _ rfl false true (by decide) (by decide)
    exact absurd heq (by decide)
  · intro hall
    have heq := hall _ rfl false true (by decide) (by decide)
    exact absurd heq (by decide)

/-- In turn, at most one of them is. -/
theorem acceptedOnce_inTurn :
    (∃ t, exec (step (serviceValidation plainConfig "ST-1") bothCalls)
        (.start Bool Error oneTicket) inTurn = some t ∧
      t.Accepted false ∧ ∀ i j, t.Accepted i → t.Accepted j → i = j) ∧
    ∃ t, exec (step (loginValidation plainConfig "LT-1") fun _ : Bool => ())
        (.start Bool Message oneLoginTicket) inTurn = some t ∧
      t.Accepted false ∧ ∀ i j, t.Accepted i → t.Accepted j → i = j := by
  have hservice : Along (step (serviceValidation plainConfig "ST-1") bothCalls)
      (LoneFind (serviceValidation plainConfig "ST-1") bothCalls)
      (.start Bool Error oneTicket) inTurn := by decide
  have hlogin : Along (step (loginValidation plainConfig "LT-1") fun _ : Bool => ())
      (LoneFind (loginValidation plainConfig "LT-1") fun _ => ())
      (.start Bool Message oneLoginTicket) inTurn := by decide
  refine ⟨⟨_, rfl, by decide, ?_⟩, ⟨_, rfl, by decide, ?_⟩⟩
  · exact (acceptedOnce_of_loneFind plainConfig "ST-1").1 _ _ _ _ hservice rfl
  · exact (acceptedOnce_of_loneFind plainConfig "LT-1").2 _ _ _ hlogin rfl

end BkPlatform.Cas
