import BkPlatform.Cas.Burning
import BkPlatform.Lib.Forgetting

/-!
# Cleaning up

`cleanup` destroys the tickets that are older than one lifetime, and of those not yet
consumed the ones that are older than another.  If the second lifetime is the one the
validators allow, and the first is not smaller, then what is destroyed is too old for every
call that comes later: it would have been refused because of its age, and now it is not
recognized.

## Main definitions

* `cleanup` — `Consumable.cleanup`, of one of the four classes.
* `reached` — the state after requests, with clean-ups in between.
* `successes` — which calls of the validators succeed.

## Main results

* `behind_cleanup`, `behind_call` — the tables differ in rows that no validator accepts.
* `successes_cleanup` — **the validators do not notice that there was a clean-up.**
-/

namespace BkPlatform.Cas

open Eff Forgetting

/-! ### The clean-up -/

/-- The classes that are `Consumable`. -/
inductive ConsumableClass
  | loginTicket
  | spTicket
  | serviceTicket
  | proxyTicket
  deriving DecidableEq, Repr

namespace ConsumableClass

/-- The rows of `casserver_st` that belong to the class. -/
def includes : ConsumableClass → SPTicket → Bool
  | loginTicket, _ => false
  | spTicket, _ => true
  | serviceTicket, st => st.type == .serviceTicket
  | proxyTicket, st => st.type == .proxyTicket

/-- How long an unused ticket of the class is accepted. -/
def maximumUnusedLifetime (config : Config) : ConsumableClass → ℤ
  | loginTicket => config.maximumUnusedLoginTicketLifetime
  | _ => config.maximumUnusedServiceTicketLifetime

end ConsumableClass

/-- `created_on < ? OR (consumed IS NULL AND created_on < ?)`. -/
def isExpired {ρ : Type} [Consumable ρ] (createdOn : ρ → ℤ)
    (maxLifetime maxUnconsumedLifetime now : ℤ) (row : ρ) : Bool :=
  createdOn row < now - maxLifetime ||
    (!isConsumed row && createdOn row < now - maxUnconsumedLifetime)

/-- `cleanup(max_lifetime, max_unconsumed_lifetime)`. -/
def cleanup (k : ConsumableClass) (maxLifetime maxUnconsumedLifetime now : ℤ) (w : World) :
    World :=
  match k with
  | .loginTicket =>
    { w with
      loginTickets := w.loginTickets.keep fun lt =>
        !isExpired LoginTicket.createdOn maxLifetime maxUnconsumedLifetime now lt }
  | k =>
    { w with
      serviceTickets := w.serviceTickets.keep fun st =>
        !(k.includes st &&
          isExpired SPTicket.createdOn maxLifetime maxUnconsumedLifetime now st) }

/-- What happens to the tables: a request is handled, or a class is cleaned up. -/
inductive Upkeep
  | request (r : Request)
  | cleanup (k : ConsumableClass) (maxLifetime maxUnconsumedLifetime now : ℤ)

/-- The state afterwards. -/
def Upkeep.handle (config : Config) (w : World) : Upkeep → World
  | request r => Cas.handle config w r
  | cleanup k maxLifetime maxUnconsumedLifetime now =>
    Cas.cleanup k maxLifetime maxUnconsumedLifetime now w

/-- The state after requests and clean-ups, from empty tables. -/
def reached (config : Config) (us : List Upkeep) : World :=
  us.foldl (Upkeep.handle config) World.empty

/-! ### Calls of the validators -/

/-- A call of a validator, in some request. -/
inductive ValidateCall
  | loginTicket (r : Request) (ticket : Option String)
  | serviceTicket (r : Request) (service ticket : Option String) (allowProxyTickets : Bool)

namespace ValidateCall

/-- The time of the call. -/
def now : ValidateCall → ℤ
  | loginTicket r _ => r.now
  | serviceTicket r _ _ _ => r.now

/-- Whether the call succeeds, and the state afterwards. -/
def call (config : Config) (w : World) : ValidateCall → Bool × World
  | .loginTicket r ticket =>
    match Eff.run (validateLoginTicket ⟨config, w.requests, r⟩ ticket) w with
    | (.ok none, w') => (true, w')
    | (_, w') => (false, w')
  | .serviceTicket r service ticket allowProxyTickets =>
    match Eff.run (validateServiceTicket ⟨config, w.requests, r⟩ service ticket
      allowProxyTickets) w with
    | (.ok (_, none), w') => (true, w')
    | (_, w') => (false, w')

end ValidateCall

/-- Which of the calls succeed, one after the other. -/
def successes (config : Config) : World → List ValidateCall → List Bool
  | _, [] => []
  | w, v :: vs => (v.call config w).1 :: successes config (v.call config w).2 vs

/-! ### What the validators find -/

/-- The rows `validate_login_ticket` chooses from. -/
def loginFinder (ticket : Option String) : LoginTicket → Bool :=
  match ticket with
  | some ticket => LoginTicket.isNamed ticket
  | none => fun _ => false

/-- The rows `validate_service_ticket` chooses from. -/
def serviceFinder (service ticket : Option String) : SPTicket → Bool :=
  match service, ticket with
  | some _, some ticket => SPTicket.isNamed ticket
  | _, _ => fun _ => false

theorem find?_loginFinder (w : World) (ticket : Option String) :
    w.loginTickets.rows.find? (loginFinder ticket) = ticket.bind (findLoginTicket w) := by
  cases ticket with
  | none => exact List.find?_eq_none.mpr fun _ _ h => nomatch h
  | some ticket => rfl

theorem find?_serviceFinder (w : World) (service ticket : Option String) :
    w.serviceTickets.rows.find? (serviceFinder service ticket) = ticketFound w service ticket := by
  cases service with
  | none => exact List.find?_eq_none.mpr fun _ _ h => nomatch h
  | some service =>
    cases ticket with
    | none => exact List.find?_eq_none.mpr fun _ _ h => nomatch h
    | some ticket => rfl

/-- `consume!` changes the row with this key. -/
def consumeRow {ρ : Type} [Consumable ρ] (key : ρ → ℕ) (now : ℤ) (found row : ρ) : ρ :=
  if key row = key found then Consumable.consume now row else row

section Calls

variable {config : Config} {w : World} {r : Request}

/-- `validate_login_ticket` in full: its answer, and the rows that are left. -/
theorem call_login {ticket : Option String} :
    ((ValidateCall.loginTicket r ticket).call config w).1 = (loginTicketError config r.now ticket
      (w.loginTickets.rows.find? (loginFinder ticket))).isNone ∧
    ((ValidateCall.loginTicket r ticket).call config w).2.loginTickets.rows =
      marked (consumeRow LoginTicket.id r.now) (w.loginTickets.rows.find? (loginFinder ticket))
        w.loginTickets.rows ∧
    ((ValidateCall.loginTicket r ticket).call config w).2.serviceTickets = w.serviceTickets := by
  rw [find?_loginFinder]
  have hcall : ∀ w', Eff.run (validateLoginTicket ⟨config, w.requests, r⟩ ticket) w =
      (.ok (loginTicketError config r.now ticket (ticket.bind (findLoginTicket w))), w') →
      (ValidateCall.loginTicket r ticket).call config w =
        ((loginTicketError config r.now ticket (ticket.bind (findLoginTicket w))).isNone, w') := by
    intro w' hrun
    rw [ValidateCall.call, hrun]
    cases loginTicketError config r.now ticket (ticket.bind (findLoginTicket w)) with
    | none => rfl
    | some message => rfl
  cases hfound : ticket.bind (findLoginTicket w) with
  | none =>
    have hrun : Eff.run (validateLoginTicket ⟨config, w.requests, r⟩ ticket) w =
        (.ok (loginTicketError config r.now ticket (ticket.bind (findLoginTicket w))), w) := by
      rw [validateLoginTicket, run_bind_ok (run_get w), hfound]
      rfl
    rw [hcall w hrun, hfound]
    exact ⟨rfl, rfl, rfl⟩
  | some lt =>
    have hrun : Eff.run (validateLoginTicket ⟨config, w.requests, r⟩ ticket) w =
        (.ok (loginTicketError config r.now ticket (ticket.bind (findLoginTicket w))),
          (Eff.run (consumeLoginTicket ⟨config, w.requests, r⟩ lt) w).2) := by
      rw [validateLoginTicket, run_bind_ok (run_get w), hfound]
      rfl
    rw [hcall _ hrun, hfound]
    exact ⟨rfl, rfl, rfl⟩

/-- `validate_service_ticket` in full. -/
theorem call_service {service ticket : Option String} {allowProxyTickets : Bool} :
    ((ValidateCall.serviceTicket r service ticket allowProxyTickets).call config w).1 =
      (serviceTicketError config r.now service ticket
        (w.serviceTickets.rows.find? (serviceFinder service ticket)) allowProxyTickets).isNone ∧
    ((ValidateCall.serviceTicket r service ticket allowProxyTickets).call config
        w).2.serviceTickets.rows =
      marked (consumeRow SPTicket.id r.now)
        (w.serviceTickets.rows.find? (serviceFinder service ticket)) w.serviceTickets.rows ∧
    ((ValidateCall.serviceTicket r service ticket allowProxyTickets).call config w).2.loginTickets =
      w.loginTickets := by
  rw [find?_serviceFinder]
  have hcall : ∀ st w', Eff.run (validateServiceTicket ⟨config, w.requests, r⟩ service ticket
      allowProxyTickets) w = (.ok (st, serviceTicketError config r.now service ticket
        (ticketFound w service ticket) allowProxyTickets), w') →
      (ValidateCall.serviceTicket r service ticket allowProxyTickets).call config w =
        ((serviceTicketError config r.now service ticket (ticketFound w service ticket)
          allowProxyTickets).isNone, w') := by
    intro st w' hrun
    rw [ValidateCall.call, hrun]
    cases serviceTicketError config r.now service ticket (ticketFound w service ticket)
      allowProxyTickets with
    | none => rfl
    | some error => rfl
  cases hfound : ticketFound w service ticket with
  | none =>
    have hrun : Eff.run (validateServiceTicket ⟨config, w.requests, r⟩ service ticket
        allowProxyTickets) w = (.ok (none, serviceTicketError config r.now service ticket
          (ticketFound w service ticket) allowProxyTickets), w) := by
      rw [validateServiceTicket, run_bind_ok (run_get w), hfound]
      rfl
    rw [hcall none w hrun, hfound]
    exact ⟨rfl, rfl, rfl⟩
  | some st =>
    let consumed : World := (Eff.run (consumeServiceTicket ⟨config, w.requests, r⟩ st) w).2
    have hconsumed : Eff.run (consumeServiceTicket ⟨config, w.requests, r⟩ st) w =
      (.ok (Consumable.consume r.now st), consumed) := rfl
    obtain ⟨history, hlogged⟩ := run_logValidated ⟨config, w.requests, r⟩ service
      (Consumable.consume r.now st)
      (serviceTicketError config r.now service ticket (some st) allowProxyTickets) consumed
    have hrun : Eff.run (validateServiceTicket ⟨config, w.requests, r⟩ service ticket
        allowProxyTickets) w = (.ok (some (Consumable.consume r.now st),
          serviceTicketError config r.now service ticket (ticketFound w service ticket)
            allowProxyTickets), { consumed with history := history }) := by
      rw [validateServiceTicket, run_bind_ok (run_get w), hfound]
      exact (run_bind_ok hconsumed).trans (run_bind_ok hlogged)
    rw [hcall _ _ hrun, hfound]
    exact ⟨rfl, rfl, rfl⟩

end Calls

/-! ### Rows that no validator accepts -/

/-- From the time `t` on the row is older than the lifetime. -/
def TooOld {ρ : Type} (createdOn : ρ → ℤ) (lifetime t : ℤ) (row : ρ) : Prop :=
  createdOn row < t - lifetime

/-- In `kept` only such rows of `full` are missing that are too old for the validators, and no
two rows of `full` have the same name. -/
structure Behind (config : Config) (t : ℤ) (full kept : World) : Prop where
  login : Forgets (TooOld LoginTicket.createdOn config.maximumUnusedLoginTicketLifetime t)
    full.loginTickets.rows kept.loginTickets.rows
  service : Forgets (TooOld SPTicket.createdOn config.maximumUnusedServiceTicketLifetime t)
    full.serviceTickets.rows kept.serviceTickets.rows
  chooseLogin : ∀ ticket, Chooses (loginFinder ticket) full.loginTickets.rows
  chooseService : ∀ service ticket,
    Chooses (serviceFinder service ticket) full.serviceTickets.rows

section Behind

variable {config : Config} {hrandom : Function.Injective config.random} {P L : Set String}
  {t : ℤ} {w full kept : World}

/-- By the books the finders have nothing to choose from. -/
theorem Books.chooseLogin (h : Books config hrandom P L w) (ticket : Option String) :
    Chooses (loginFinder ticket) w.loginTickets.rows := by
  intro lt hlt lt' hlt' hnamed hnamed'
  cases ticket with
  | none => cases hnamed
  | some ticket =>
    exact h.login.unique lt hlt lt' hlt' ((beq_iff_eq.mp hnamed).trans (beq_iff_eq.mp hnamed').symm)

theorem Books.chooseService (h : Books config hrandom P L w) (service ticket : Option String) :
    Chooses (serviceFinder service ticket) w.serviceTickets.rows := by
  intro st hst st' hst' hnamed hnamed'
  cases service with
  | none => cases hnamed
  | some service =>
    cases ticket with
    | none => cases hnamed
    | some ticket =>
      obtain ⟨htype, hname⟩ := Bool.and_eq_true_iff.mp hnamed
      obtain ⟨htype', hname'⟩ := Bool.and_eq_true_iff.mp hnamed'
      exact h.service.unique st ⟨hst, beq_iff_eq.mp htype⟩ st' ⟨hst', beq_iff_eq.mp htype'⟩
        ((beq_iff_eq.mp hname).trans (beq_iff_eq.mp hname').symm)

/-- A clean-up destroys rows and nothing else. -/
theorem books_cleanup (h : Books config hrandom P L w) (k : ConsumableClass)
    (maxLifetime maxUnconsumedLifetime now : ℤ) :
    Books config hrandom P L (cleanup k maxLifetime maxUnconsumedLifetime now w) := by
  unfold cleanup
  split
  · exact h.mono (Nat.le_refl _) subset_rfl fun lt hlt => (Table.mem_keep.mp hlt).1
  · exact h.mono (Nat.le_refl _) (fun st hst => ⟨(Table.mem_keep.mp hst.1).1, hst.2⟩) subset_rfl

/-- The books of requests and clean-ups. -/
theorem books_reached (config : Config) (hrandom : Function.Injective config.random)
    (us : List Upkeep) : ∃ P L, Books config hrandom P L (reached config us) := by
  refine Run.foldl_inv (I := fun w => ∃ P L, Books config hrandom P L w) ?_
    ⟨∅, ∅, books_empty⟩ us
  rintro w u ⟨P, L, h⟩
  cases u with
  | request r => exact ⟨_, _, books_handle h r⟩
  | cleanup k maxLifetime maxUnconsumedLifetime now => exact ⟨P, L, books_cleanup h k _ _ _⟩

/-- What `cleanup` destroys is too old, if the first lifetime is not smaller. -/
theorem tooOld_of_isExpired {ρ : Type} [Consumable ρ] {createdOn : ρ → ℤ}
    {maxLifetime lifetime : ℤ} (hle : lifetime ≤ maxLifetime) {row : ρ}
    (h : isExpired createdOn maxLifetime lifetime t row = true) :
    TooOld createdOn lifetime t row := by
  unfold TooOld
  rcases Bool.or_eq_true_iff.mp h with hold | hold
  · have hlt := of_decide_eq_true hold
    omega
  · exact of_decide_eq_true (Bool.and_eq_true_iff.mp hold).2

/-- **After a clean-up only rows are missing that are too old.** -/
theorem behind_cleanup (h : Books config hrandom P L w) {k : ConsumableClass} {maxLifetime : ℤ}
    (hle : k.maximumUnusedLifetime config ≤ maxLifetime) :
    Behind config t w (cleanup k maxLifetime (k.maximumUnusedLifetime config) t w) := by
  have hservice : config.maximumUnusedServiceTicketLifetime ≤ maxLifetime →
      Behind config t w { w with serviceTickets := w.serviceTickets.keep fun st =>
        !(k.includes st && isExpired SPTicket.createdOn maxLifetime
          config.maximumUnusedServiceTicketLifetime t st) } := by
    intro hle
    refine ⟨Forgets.refl, Forgets.filter fun st _ hst => ?_, h.chooseLogin, h.chooseService⟩
    rw [Bool.not_eq_false'] at hst
    exact tooOld_of_isExpired hle (Bool.and_eq_true_iff.mp hst).2
  cases k with
  | loginTicket =>
    refine ⟨Forgets.filter fun lt _ hlt => ?_, Forgets.refl, h.chooseLogin, h.chooseService⟩
    rw [Bool.not_eq_false'] at hlt
    exact tooOld_of_isExpired hle hlt
  | spTicket => exact hservice hle
  | serviceTicket => exact hservice hle
  | proxyTicket => exact hservice hle

/-! ### The calls -/

section ConsumeRow

variable {ρ : Type} [Consumable ρ] {key : ρ → ℕ}

/-- What `consume!` does not change. -/
theorem consumeRow_of_consume {α : Type} {f : ρ → α}
    (hf : ∀ now row, f (Consumable.consume now row) = f row) (now : ℤ) (found row : ρ) :
    f (consumeRow key now found row) = f row := by
  unfold consumeRow
  split
  · exact hf now row
  · rfl

/-- Of a table one row is consumed. -/
theorem consumeRow_of_ne (table : Table ρ key) (now : ℤ) {found row : ρ}
    (hfound : found ∈ table.rows) (hrow : row ∈ table.rows) (hne : row ≠ found) :
    consumeRow key now found row = row :=
  if_neg fun hkey => hne (table.eq_of_key hrow hfound hkey)

/-- The rows of a table without those too old, when the row found is consumed. -/
theorem forgets_consumeRow {table : Table ρ key} {rows : List ρ} {createdOn : ρ → ℤ}
    {lifetime now : ℤ} {p : ρ → Bool}
    (h : Forgets (TooOld createdOn lifetime t) table.rows rows) (hchooses : Chooses p table.rows)
    (hcreated : ∀ now row, createdOn (Consumable.consume now row) = createdOn row) :
    Forgets (TooOld createdOn lifetime t)
      (marked (consumeRow key now) (table.rows.find? p) table.rows)
      (marked (consumeRow key now) (rows.find? p) rows) := by
  refine h.marked hchooses (fun found row hold => ?_) fun found hfound row hrow hne =>
    consumeRow_of_ne table now hfound hrow hne
  unfold TooOld at hold ⊢
  rw [consumeRow_of_consume hcreated]
  exact hold

end ConsumeRow

/-- A login ticket that is too old is as bad as none. -/
theorem isNone_loginTicketError_of_tooOld {now : ℤ} {ticket : Option String} {lt : LoginTicket}
    (hnow : t ≤ now)
    (hold : TooOld LoginTicket.createdOn config.maximumUnusedLoginTicketLifetime t lt) :
    (loginTicketError config now ticket (some lt)).isNone =
      (loginTicketError config now ticket none).isNone := by
  unfold TooOld at hold
  rw [Bool.eq_iff_iff, Option.isNone_iff_eq_none, Option.isNone_iff_eq_none,
    loginTicketError_eq_none, loginTicketError_eq_none]
  constructor
  · rintro ⟨-, row, hrow, -, hage⟩
    obtain rfl := Option.some.inj hrow
    omega
  · rintro ⟨-, row, hrow, -⟩
    cases hrow

/-- And so is a service ticket. -/
theorem isNone_serviceTicketError_of_tooOld {now : ℤ} {service ticket : Option String}
    {allowProxyTickets : Bool} {st : SPTicket} (hnow : t ≤ now)
    (hold : TooOld SPTicket.createdOn config.maximumUnusedServiceTicketLifetime t st) :
    (serviceTicketError config now service ticket (some st) allowProxyTickets).isNone =
      (serviceTicketError config now service ticket none allowProxyTickets).isNone := by
  unfold TooOld at hold
  rw [Bool.eq_iff_iff, Option.isNone_iff_eq_none, Option.isNone_iff_eq_none,
    serviceTicketError_eq_none, serviceTicketError_eq_none]
  constructor
  · rintro ⟨-, s, row, -, hrow, -, -, hage, -⟩
    obtain rfl := Option.some.inj hrow
    omega
  · rintro ⟨-, s, row, -, hrow, -⟩
    cases hrow

theorem loginFinder_consume (ticket : Option String) (now : ℤ) (lt : LoginTicket) :
    loginFinder ticket (Consumable.consume now lt) = loginFinder ticket lt := by
  cases ticket with
  | none => rfl
  | some ticket => rfl

theorem serviceFinder_consume (service ticket : Option String) (now : ℤ) (st : SPTicket) :
    serviceFinder service ticket (Consumable.consume now st) = serviceFinder service ticket st := by
  cases service with
  | none => rfl
  | some service =>
    cases ticket with
    | none => rfl
    | some ticket => rfl

/-- **A call answers the same, and leaves the tables alike.** -/
theorem behind_call (h : Behind config t full kept) {v : ValidateCall} (hnow : t ≤ v.now) :
    (v.call config kept).1 = (v.call config full).1 ∧
      Behind config t (v.call config full).2 (v.call config kept).2 := by
  cases v with
  | loginTicket r ticket =>
    obtain ⟨hanswer, hrows, hother⟩ := @call_login config full r ticket
    obtain ⟨hanswer', hrows', hother'⟩ := @call_login config kept r ticket
    have hchooses := h.chooseLogin ticket
    constructor
    · rw [hanswer, hanswer']
      exact h.login.answer_eq hchooses (fun lt => (loginTicketError config r.now ticket lt).isNone)
        fun _ hold => isNone_loginTicketError_of_tooOld hnow hold
    · refine ⟨?_, ?_, fun ticket' => ?_, ?_⟩
      · rw [hrows, hrows']
        exact forgets_consumeRow h.login hchooses fun _ _ => rfl
      · rw [hother, hother']
        exact h.service
      · rw [hrows]
        exact (h.chooseLogin ticket').marked
          (consumeRow_of_consume (loginFinder_consume ticket') r.now) _
      · rw [hother]
        exact h.chooseService
  | serviceTicket r service ticket allowProxyTickets =>
    obtain ⟨hanswer, hrows, hother⟩ := @call_service config full r service ticket allowProxyTickets
    obtain ⟨hanswer', hrows', hother'⟩ :=
      @call_service config kept r service ticket allowProxyTickets
    have hchooses := h.chooseService service ticket
    constructor
    · rw [hanswer, hanswer']
      exact h.service.answer_eq hchooses (fun st => (serviceTicketError config r.now service ticket
        st allowProxyTickets).isNone) fun _ hold => isNone_serviceTicketError_of_tooOld hnow hold
    · refine ⟨?_, ?_, ?_, fun service' ticket' => ?_⟩
      · rw [hother, hother']
        exact h.login
      · rw [hrows, hrows']
        exact forgets_consumeRow h.service hchooses fun _ _ => rfl
      · rw [hother]
        exact h.chooseLogin
      · rw [hrows]
        exact (h.chooseService service' ticket').marked
          (consumeRow_of_consume (serviceFinder_consume service' ticket') r.now) _

/-- The answers of a sequence of calls. -/
theorem successes_eq_of_behind (h : Behind config t full kept) {vs : List ValidateCall}
    (hnow : ∀ v ∈ vs, t ≤ v.now) : successes config kept vs = successes config full vs := by
  induction vs generalizing full kept with
  | nil => rfl
  | cons v vs ih =>
    rw [List.forall_mem_cons] at hnow
    obtain ⟨hanswer, hbehind⟩ := behind_call h hnow.1
    rw [successes, successes, hanswer, ih hbehind hnow.2]

end Behind

/-- **The validators do not notice that there was a clean-up**: whatever requests and
clean-ups came before, the calls that come after a clean-up with the lifetime of the unused
tickets, and one that is not smaller, succeed as they would without it. -/
theorem successes_cleanup {config : Config} (hrandom : Function.Injective config.random)
    (us : List Upkeep) (k : ConsumableClass) {maxLifetime : ℤ} (t : ℤ)
    (hle : k.maximumUnusedLifetime config ≤ maxLifetime) {vs : List ValidateCall}
    (hnow : ∀ v ∈ vs, t ≤ v.now) :
    successes config (cleanup k maxLifetime (k.maximumUnusedLifetime config) t
        (reached config us)) vs =
      successes config (reached config us) vs := by
  obtain ⟨P, L, hbooks⟩ := books_reached config hrandom us
  exact successes_eq_of_behind (behind_cleanup hbooks hle) hnow

/-- A login, and the login form once more. -/
def loginTwice : List Upkeep :=
  loginOnce.map .request ++ [.request { endpoint := .postLoginTicket, now := 300 }]

/-- The login ticket of the first form is destroyed, and that of the second one is not. -/
theorem successes_cleanup_loginTwice : successes countingConfig
    (cleanup .loginTicket 600 300 311 (reached countingConfig loginTwice))
    [.loginTicket { endpoint := .postLogin, now := 311 } (some "LT-x"),
     .loginTicket { endpoint := .postLogin, now := 312 } (some "LT-xxxx")] = [false, true] :=
  (successes_cleanup injective_countingConfig loginTwice .loginTicket 311 (by decide)
    (by decide)).trans (by decide +kernel)

end BkPlatform.Cas
