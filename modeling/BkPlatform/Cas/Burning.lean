import BkPlatform.Cas.Books
import BkPlatform.Cas.Logout
import BkPlatform.Cas.Replay

/-!
# What is accepted, and what is burnt

By the books a validator does not need the column `consumed`: it accepts a stored
ticket that no earlier request has presented, in time and for its service, and what
it has found once it never accepts again.

A login asks the authenticators after its login ticket has been accepted, so whoever
tries a password has to fetch a login ticket for it first.

## Main definitions

* `ServicePasses`, `LoginPasses` — a validator returns no error.
* `UsesUp` — a login presents a good login ticket, and burns it.
* `ExactTickets` — what the validators accept after a run, and what they burn.

## Main results

* `Books.servicePasses_iff`, `Books.loginPasses_iff` — the decision tables, by the books.
* `exactTickets` — **a validator accepts exactly the tickets never presented, in time and
  for their service, and burns what it finds.**
-/

namespace BkPlatform.Cas

open Eff RubyString

/-! ### What the validators accept -/

/-- `validate_service_ticket` returns no error. -/
def ServicePasses (c : Context) (w : World) (service ticket : Option String)
    (allowProxyTickets : Bool) : Prop :=
  ∃ st w', Eff.run (validateServiceTicket c service ticket allowProxyTickets) w =
    (.ok (st, none), w')

/-- `validate_login_ticket` returns no error. -/
def LoginPasses (c : Context) (w : World) (ticket : Option String) : Prop :=
  ∃ w', Eff.run (validateLoginTicket c ticket) w = (.ok none, w')

section Passes

variable {c : Context} {w : World} {service ticket : Option String} {allowProxyTickets : Bool}

/-- `validate_service_ticket` returns the row found, consumed, and what its test says of
it; it does not touch the granting tickets. -/
theorem returns_validateServiceTicket : ∃ w',
    Eff.run (validateServiceTicket c service ticket allowProxyTickets) w =
      (.ok ((ticketFound w service ticket).map (Consumable.consume c.now),
        serviceTicketError c.config c.now service ticket (ticketFound w service ticket)
          allowProxyTickets), w') ∧ w'.grantingTickets = w.grantingTickets := by
  simp only [validateServiceTicket, run_bind, run_get]
  cases ticketFound w service ticket with
  | none => exact ⟨w, rfl, rfl⟩
  | some st =>
    let consumed : World := (Eff.run (consumeServiceTicket c st) w).2
    have hconsumed : Eff.run (consumeServiceTicket c st) w =
      (.ok (Consumable.consume c.now st), consumed) := rfl
    obtain ⟨history, hlogged⟩ := run_logValidated c service (Consumable.consume c.now st)
      (serviceTicketError c.config c.now service ticket (some st) allowProxyTickets) consumed
    refine ⟨{ consumed with history := history }, ?_, rfl⟩
    rw [run_bind_ok hconsumed, run_bind_ok hlogged]
    rfl

theorem servicePasses_iff : ServicePasses c w service ticket allowProxyTickets ↔
    serviceTicketError c.config c.now service ticket (ticketFound w service ticket)
      allowProxyTickets = none := by
  obtain ⟨w', hrun, -⟩ := @returns_validateServiceTicket c w service ticket allowProxyTickets
  constructor
  · rintro ⟨st', w'', hnone⟩
    obtain ⟨hpair, -⟩ := Prod.mk.inj (hrun.symm.trans hnone)
    exact (Prod.mk.inj (Except.ok.inj hpair)).2
  · intro hnone
    rw [hnone] at hrun
    exact ⟨_, w', hrun⟩

/-- `validate_login_ticket` returns what its test says of the row found. -/
theorem returns_validateLoginTicket : ∃ w', Eff.run (validateLoginTicket c ticket) w =
    (.ok (loginTicketError c.config c.now ticket (ticket.bind (findLoginTicket w))), w') := by
  simp only [validateLoginTicket, run_bind, run_get]
  cases ticket.bind (findLoginTicket w) with
  | none => exact ⟨w, rfl⟩
  | some lt => exact ⟨_, rfl⟩

theorem loginPasses_iff : LoginPasses c w ticket ↔
    loginTicketError c.config c.now ticket (ticket.bind (findLoginTicket w)) = none := by
  obtain ⟨w', hrun⟩ := @returns_validateLoginTicket c w ticket
  constructor
  · rintro ⟨w'', hnone⟩
    exact Except.ok.inj (Prod.mk.inj (hrun.symm.trans hnone)).1
  · intro hnone
    rw [hnone] at hrun
    exact ⟨w', hrun⟩

/-- Without a login ticket that passes, nobody asks the authenticators. -/
theorem run_postLogin_refused (hrefused : ¬ LoginPasses c w c.request.lt)
    (auth : List Authenticator) :
    Eff.run (postLogin { c with request := { c.request with auth := auth } }) w =
      Eff.run (postLogin c) w := by
  obtain ⟨w', hrun⟩ := @returns_validateLoginTicket c w c.request.lt
  cases herror : loginTicketError c.config c.now c.request.lt
    (c.request.lt.bind (findLoginTicket w)) with
  | none => exact absurd (loginPasses_iff.mpr herror) hrefused
  | some message =>
    rw [herror] at hrun
    rw [postLogin, postLogin, run_bind_ok hrun]
    exact run_bind_ok hrun

end Passes

section Exact

variable {config : Config} {hrandom : Function.Injective config.random} {P L : Set String}
  {w : World} {n : ℕ} {r : Request}

/-- The finder finds a service ticket by its name. -/
theorem Books.findServiceTicket_eq (h : Books config hrandom P L w) {st : SPTicket}
    (hst : st ∈ w.serviceTickets.rows) (htype : st.type = .serviceTicket) :
    findServiceTicket w st.ticket = some st := by
  cases hfind : findServiceTicket w st.ticket with
  | none =>
    have hnot := List.find?_eq_none.mp hfind st hst
    simp [SPTicket.isNamed, htype] at hnot
  | some st' =>
    obtain ⟨-, t, -, heq, hrow, htype', hname⟩ :=
      @ticketFound_eq_some w (some "") (some st.ticket) st' hfind
    obtain rfl := Option.some.inj heq
    rw [h.service.unique st' ⟨hrow, htype'⟩ st ⟨hst, htype⟩ hname]

/-- The finder finds a login ticket by its name. -/
theorem Books.findLoginTicket_eq (h : Books config hrandom P L w) {lt : LoginTicket}
    (hlt : lt ∈ w.loginTickets.rows) : findLoginTicket w lt.ticket = some lt := by
  cases hfind : findLoginTicket w lt.ticket with
  | none =>
    have hnot := List.find?_eq_none.mp hfind lt hlt
    simp [LoginTicket.isNamed] at hnot
  | some lt' =>
    obtain ⟨hrow, hname⟩ := findLoginTicket_eq_some hfind
    rw [h.login.unique lt' hrow lt hlt hname]

/-- Which arguments `validate_service_ticket` accepts, by the books. -/
theorem Books.servicePasses_iff (h : Books config hrandom P L w) {service ticket : Option String}
    {allowProxyTickets : Bool} :
    ServicePasses ⟨config, n, r⟩ w service ticket allowProxyTickets ↔
      ∃ s t, service = some s ∧ ticket = some t ∧ t ∉ P ∧
        ∃ st ∈ w.serviceTickets.rows, st.type = .serviceTicket ∧ st.ticket = t ∧
          r.now - st.createdOn ≤ config.maximumUnusedServiceTicketLifetime ∧
          cleanServiceUrl s = cleanServiceUrl st.service := by
  rw [Cas.servicePasses_iff, serviceTicketError_eq_none]
  constructor
  · rintro ⟨-, s, st, rfl, hfound, hopen, -, hage, hmatches⟩
    obtain ⟨-, t, -, rfl, hst, htype, hname⟩ := ticketFound_eq_some hfound
    refine ⟨s, t, rfl, rfl, ?_, st, hst, htype, hname, hage, (beq_iff_eq.mp hmatches).symm⟩
    rw [← hname]
    exact (h.service.unused_iff ⟨hst, htype⟩).mp hopen
  · rintro ⟨s, t, rfl, rfl, hnever, st, hst, htype, rfl, hage, hservice⟩
    refine ⟨rfl, s, st, rfl, h.findServiceTicket_eq hst htype, ?_, ?_, hage,
      beq_iff_eq.mpr hservice.symm⟩
    · exact (h.service.unused_iff ⟨hst, htype⟩).mpr hnever
    · intro hproxy
      rw [htype] at hproxy
      cases hproxy

/-- Which arguments `validate_login_ticket` accepts, by the books. -/
theorem Books.loginPasses_iff (h : Books config hrandom P L w) {ticket : Option String} :
    LoginPasses ⟨config, n, r⟩ w ticket ↔
      ∃ t, ticket = some t ∧ t ∉ L ∧ ∃ lt ∈ w.loginTickets.rows, lt.ticket = t ∧
        r.now - lt.createdOn < config.maximumUnusedLoginTicketLifetime := by
  rw [Cas.loginPasses_iff, loginTicketError_eq_none]
  constructor
  · rintro ⟨-, lt, hfound, hopen, hage⟩
    obtain ⟨t, rfl, hfind⟩ := Option.bind_eq_some_iff.mp hfound
    obtain ⟨hlt, rfl⟩ := findLoginTicket_eq_some hfind
    exact ⟨lt.ticket, rfl, (h.login.unused_iff hlt).mp hopen, lt, hlt, rfl, hage⟩
  · rintro ⟨t, rfl, hnever, lt, hlt, rfl, hage⟩
    exact ⟨rfl, lt, h.findLoginTicket_eq hlt, (h.login.unused_iff hlt).mpr hnever, hage⟩

end Exact

/-! ### The law of the tickets -/

/-- One of the requests has stored the login ticket. -/
def IssuedLogin (config : Config) (rs : List Request) (ticket : String) : Prop :=
  ∃ before r after, rs = before ++ r :: after ∧
    (∀ lt ∈ (run config before).loginTickets.rows, lt.ticket ≠ ticket) ∧
    ∃ lt ∈ (run config (before ++ [r])).loginTickets.rows, lt.ticket = ticket

/-- The request presents a login ticket that is good, and nobody can present it again. -/
structure UsesUp (config : Config) (rs : List Request) (r : Request) (lt : LoginTicket) : Prop where
  presents : r.lt = some lt.ticket
  stored : lt ∈ (run config rs).loginTickets.rows
  issued : IssuedLogin config rs lt.ticket
  never : lt.ticket ∉ PresentedLogin config rs
  inTime : r.now - lt.createdOn < config.maximumUnusedLoginTicketLifetime
  presented : lt.ticket ∈ PresentedLogin config (rs ++ [r])
  consumed : ∀ row ∈ (run config (rs ++ [r])).loginTickets.rows, row.ticket = lt.ticket →
    isConsumed row = true

/-- What the authenticators would say makes no difference. -/
def ChecksNothing (config : Config) (w : World) (r : Request) : Prop :=
  ∀ auth, handle config w { r with auth := auth } = handle config w r ∧
    answer config w { r with auth := auth } = answer config w r

/-- No service ticket of this name is accepted. -/
def BurntService (config : Config) (w : World) (ticket : String) : Prop :=
  ∀ n r service allowProxyTickets,
    ¬ ServicePasses ⟨config, n, r⟩ w service (some ticket) allowProxyTickets

/-- No login ticket of this name is accepted. -/
def BurntLogin (config : Config) (w : World) (ticket : String) : Prop :=
  ∀ n r, ¬ LoginPasses ⟨config, n, r⟩ w (some ticket)

/-- What the validators accept after the requests `rs`, whoever calls them and when, and
what is burnt for good by being found, in a call or in a request. -/
structure ExactTickets (config : Config) (rs : List Request) : Prop where
  accepts : ∀ n r service ticket allowProxyTickets,
    ServicePasses ⟨config, n, r⟩ (run config rs) service ticket allowProxyTickets ↔
      ∃ s t, service = some s ∧ ticket = some t ∧ t ∉ Presented config rs ∧
        ∃ st ∈ (run config rs).serviceTickets.rows, st.type = .serviceTicket ∧ st.ticket = t ∧
          r.now - st.createdOn ≤ config.maximumUnusedServiceTicketLifetime ∧
          cleanServiceUrl s = cleanServiceUrl st.service
  burns : ∀ n r service ticket allowProxyTickets st,
    ticketFound (run config rs) service ticket = some st → ∀ later : List Request,
      BurntService config (later.foldl (handle config) (Eff.run (validateServiceTicket
        ⟨config, n, r⟩ service ticket allowProxyTickets) (run config rs)).2) st.ticket
  burnsRequest : ∀ r st, serviceFound (run config rs) r = some st → ∀ later,
    BurntService config (run config (rs ++ r :: later)) st.ticket
  acceptsLogin : ∀ n r ticket, LoginPasses ⟨config, n, r⟩ (run config rs) ticket ↔
    ∃ t, ticket = some t ∧ t ∉ PresentedLogin config rs ∧
      ∃ lt ∈ (run config rs).loginTickets.rows, lt.ticket = t ∧
        r.now - lt.createdOn < config.maximumUnusedLoginTicketLifetime
  burnsLogin : ∀ n r ticket lt, ticket.bind (findLoginTicket (run config rs)) = some lt →
    ∀ later : List Request, BurntLogin config (later.foldl (handle config)
      (Eff.run (validateLoginTicket ⟨config, n, r⟩ ticket) (run config rs)).2) lt.ticket
  burnsLoginRequest : ∀ r lt, loginFound (run config rs) r = some lt → ∀ later,
    BurntLogin config (run config (rs ++ r :: later)) lt.ticket
  checks : ∀ r, r.endpoint = .postLogin →
    (∃ lt, UsesUp config rs r lt) ∨ ChecksNothing config (run config rs) r

section Law

variable {config : Config} {hrandom : Function.Injective config.random} {P L : Set String}
  {rs : List Request} {w : World} {n : ℕ} {r : Request}

/-- What is stored has been issued. -/
theorem issuedLogin_of_mem {lt : LoginTicket} (hlt : lt ∈ (run config rs).loginTickets.rows) :
    IssuedLogin config rs lt.ticket := by
  induction rs using List.reverseRecOn generalizing lt with
  | nil => exact absurd hlt List.not_mem_nil
  | append_singleton rs q ih =>
    by_cases hold : ∃ row ∈ (run config rs).loginTickets.rows, row.ticket = lt.ticket
    · obtain ⟨row, hrow, hname⟩ := hold
      obtain ⟨before, r, after, rfl, hnew⟩ := ih hrow
      rw [hname] at hnew
      exact ⟨before, r, after ++ [q], by simp, hnew⟩
    · have hnone : ∀ row ∈ (run config rs).loginTickets.rows, row.ticket ≠ lt.ticket :=
        fun row hrow hname => hold ⟨row, hrow, hname⟩
      exact ⟨rs, q, [], rfl, hnone, lt, hlt, rfl⟩

/-- What has been presented is not accepted. -/
theorem Books.burntService (h : Books config hrandom P L w) {ticket : String} (ht : ticket ∈ P) :
    BurntService config w ticket := by
  intro n r service allowProxyTickets hpasses
  obtain ⟨s, t, -, heq, hnever, -⟩ := h.servicePasses_iff.mp hpasses
  exact hnever (Option.some.inj heq ▸ ht)

theorem Books.burntLogin (h : Books config hrandom P L w) {ticket : String} (ht : ticket ∈ L) :
    BurntLogin config w ticket := by
  intro n r hpasses
  obtain ⟨t, heq, hnever, -⟩ := h.loginPasses_iff.mp hpasses
  exact hnever (Option.some.inj heq ▸ ht)

/-- A login that gets to the authenticators uses up its login ticket. -/
theorem usesUp_of_loginPasses (hrandom : Function.Injective config.random)
    (hendpoint : r.endpoint = .postLogin)
    (hpasses : LoginPasses ⟨config, n, r⟩ (run config rs) r.lt) : ∃ lt, UsesUp config rs r lt := by
  obtain ⟨t, hpresents, hnever, lt, hlt, rfl, hage⟩ :=
    (books_run config hrandom rs).loginPasses_iff.mp hpasses
  have hfound : loginFound (run config rs) r = some lt := by
    rw [loginFound, hendpoint, hpresents]
    exact (books_run config hrandom rs).findLoginTicket_eq hlt
  have hpresented : lt.ticket ∈ PresentedLogin config (rs ++ [r]) :=
    ⟨rs, r, [], rfl, lt, hfound, rfl⟩
  refine ⟨lt, hpresents, hlt, issuedLogin_of_mem hlt, hnever, hage, hpresented, ?_⟩
  intro row hrow heq
  rw [← heq] at hpresented
  exact ((books_run config hrandom (rs ++ [r])).login.flagged row hrow).mpr hpresented

/-- And one that does not get there does not depend on them. -/
theorem checksNothing_of_not_loginPasses (hendpoint : r.endpoint = .postLogin)
    (hrefused : ¬ LoginPasses (contextOf config w r) w r.lt) : ChecksNothing config w r := by
  intro auth
  have hcounted : ¬ LoginPasses (contextOf config w r) { w with requests := w.requests + 1 }
      r.lt := by
    intro hpasses
    have hnone := loginPasses_iff.mp hpasses
    exact hrefused (loginPasses_iff.mpr hnone)
  have hroute : ∀ q : Request, q.endpoint = .postLogin →
      respond (contextOf config w q) = postLogin (contextOf config w q) := by
    intro q hq
    unfold respond
    rw [show (contextOf config w q).request.endpoint = .postLogin from hq]
  have hsame : Eff.run (respond (contextOf config w { r with auth := auth }))
        { w with requests := w.requests + 1 } =
      Eff.run (respond (contextOf config w r)) { w with requests := w.requests + 1 } := by
    rw [hroute r hendpoint, hroute { r with auth := auth } hendpoint]
    exact run_postLogin_refused hcounted auth
  exact ⟨congrArg Prod.snd hsame, congrArg Prod.fst hsame⟩

/-- **A validator accepts exactly the tickets that are stored and were never presented, in
time and for their service, and burns whatever it finds; so every login that asks the
authenticators uses up a login ticket.** -/
theorem exactTickets (hrandom : Function.Injective config.random) (rs : List Request) :
    ExactTickets config rs where
  accepts := fun _ _ _ _ _ => (books_run config hrandom rs).servicePasses_iff
  burns := by
    intro n r service ticket allowProxyTickets st hfound later
    have hcall := (@burns_validateServiceTicket ⟨config, n, r⟩ hrandom _ _ service ticket
      allowProxyTickets (some st)).state ⟨books_run config hrandom rs, hfound⟩
    obtain ⟨P', L', hP, -, hbooks⟩ := books_foldl later hcall
    exact hbooks.burntService (hP (mem_burnt_some.mpr (Or.inr rfl)))
  burnsRequest := by
    intro r st hfound later
    exact (books_run config hrandom _).burntService ⟨rs, r, later, rfl, st, hfound, rfl⟩
  acceptsLogin := fun _ _ _ => (books_run config hrandom rs).loginPasses_iff
  burnsLogin := by
    intro n r ticket lt hfound later
    have hcall := (@books_validateLoginTicket ⟨config, n, r⟩ hrandom _ _ ticket
      (some lt)).state ⟨books_run config hrandom rs, hfound⟩
    obtain ⟨P', L', -, hL, hbooks⟩ := books_foldl later hcall
    exact hbooks.burntLogin (hL (mem_burnt_some.mpr (Or.inr rfl)))
  burnsLoginRequest := by
    intro r lt hfound later
    exact (books_run config hrandom _).burntLogin ⟨rs, r, later, rfl, lt, hfound, rfl⟩
  checks := by
    intro r hendpoint
    by_cases hpasses : LoginPasses (contextOf config (run config rs) r) (run config rs) r.lt
    · exact Or.inl (usesUp_of_loginPasses hrandom hendpoint hpasses)
    · exact Or.inr (checksNothing_of_not_loginPasses hendpoint hpasses)

end Law

/-- After one login: its login ticket is burnt, its service ticket is not. -/
theorem exactTickets_loginOnce : ExactTickets countingConfig loginOnce :=
  exactTickets injective_countingConfig loginOnce

end BkPlatform.Cas
