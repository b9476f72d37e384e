import BkPlatform.Cas.Records

/-!
# The length of a session

`maximum_session_lifetime` is to bound a session.  `POST /login` issues a ticket
at the time of the login, and `GET /login` asks whether the session is over.
`/proxy` asks nothing of that kind: it takes a proxy-granting ticket as long as
its service ticket is in the table, and that is there until the logout.  So
tickets are issued in time as long as the requests to `/proxy` come in time, and
only then (`timely_iff`).

## Main definitions

* `Timely` — the ticket of an entry is issued in time.
* `ProxiedInTime` — a request to `/proxy` comes in time.

## Main results

* `timely_handle_iff` — one request issues in time iff it meets that.
* `timely_iff` — **the same for all requests of a run.**
-/

namespace BkPlatform.Cas

open Eff Log Run

/-! ### Statements -/

/-- A ticket is issued no later than `L` after the login that authenticated its user. -/
def Timely (L : ℕ) (before : List Entry) (e : Entry) : Prop :=
  ∀ st, e.event = .issued st → ∃ n r tgt, r.endpoint = .postLogin ∧
    ⟨n, r, .authenticated (some st.username)⟩ ∈ before ∧ ⟨n, r, .granted tgt⟩ ∈ before ∧
    st.grantedByTgtId = some tgt.id ∧ e.request.now ≤ r.now + L

/-- The proxy-granting ticket that is found, with its service ticket. -/
def proxyGranting (w : World) (ticket : Option String) : Option (ProxyGrantingTicket × SPTicket) :=
  (ticket.bind (findProxyGrantingTicket w)).bind fun pgt =>
    (serviceTicketOf w pgt).map fun st => (pgt, st)

/-- A request that is given a proxy ticket by `/proxy` comes no later than `L` after its
session was granted. -/
def ProxiedInTime (L : ℕ) (w : World) (r : Request) : Prop :=
  r.endpoint = .proxy → r.targetService.isSome = true →
    ∀ pgt st, proxyGranting w r.pgt = some (pgt, st) →
      ∀ tgt ∈ tickets Event.grantedTicket w.history, st.grantedByTgtId = some tgt.id →
        r.now ≤ tgt.createdOn + L

/-! ### The other routes -/

variable {config : Config} {L : ℕ}

/-- A session that is not over by `now`. -/
theorem le_of_not_expired {now : ℤ} {tgt : TicketGrantingTicket}
    (hL : config.maximumSessionLifetime = some (L : ℤ)) (h : expired config now tgt = false) :
    now ≤ tgt.createdOn + L := by
  simp only [expired, hL, Option.any_some, decide_eq_false_iff_not] at h
  omega

/-- The login of a ticket-granting ticket, and when it was. -/
theorem World.Kept.login {w : World} (h : w.Kept config) {tgt : TicketGrantingTicket}
    (hlogin : LoggedIn config w.history tgt) :
    ∃ n r, r.endpoint = .postLogin ∧ ⟨n, r, .authenticated (some tgt.username)⟩ ∈ w.history ∧
      ⟨n, r, .granted tgt⟩ ∈ w.history ∧ tgt.createdOn = r.now := by
  obtain ⟨n, r, hendpoint, -, hauth, hgranted⟩ := hlogin
  obtain ⟨before, after, hhistory⟩ := List.append_of_mem hgranted
  have hnew := ((h.originates before _ after hhistory).granted tgt rfl).2
  exact ⟨n, r, hendpoint, hauth, hgranted, hnew⟩

/-- A ticket that goes back to a login of at most `L` before. -/
theorem World.Kept.timely {w : World} (h : w.Kept config) {tgt : TicketGrantingTicket}
    (hlogin : LoggedIn config w.history tgt) {e : Entry} {st : SPTicket}
    (hissued : e.event = .issued st) (husername : st.username = tgt.username)
    (hid : st.grantedByTgtId = some tgt.id) (hle : e.request.now ≤ tgt.createdOn + L) :
    Timely L w.history e := by
  intro st' hissued'
  obtain rfl := Event.issued.inj (hissued.symm.trans hissued')
  obtain ⟨n, r, hendpoint, hauth, hgranted, hnew⟩ := h.login hlogin
  refine ⟨n, r, tgt, hendpoint, ?_, hgranted, hid, by omega⟩
  rw [husername]
  exact hauth

theorem timely_of_other {before : List Entry} {e : Entry} (h : e.event.issuedTicket = none) :
    Timely L before e :=
  fun st heq => by simp [heq, Event.issuedTicket] at h

/-- The other routes issue in time. -/
theorem timely_change {c : Context} {w w' : World}
    (hL : c.config.maximumSessionLifetime = some (L : ℤ)) (hkept : w.Kept c.config)
    (hendpoint : c.request.endpoint ≠ .proxy) (h : Always (Timely L) w.history)
    (hchange : Change c w w') : Always (Timely L) w'.history := by
  cases hchange with
  | draw | setLoginTickets | consume | destroyServiceTicket | destroyProxyGrantingTickets =>
    exact h
  | authenticate | grant | grantProxy | validate | destroy =>
    exact always_snoc.mpr ⟨h, timely_of_other rfl⟩
  | @issue tgt service hentitles =>
    have hlogin := hkept.sound.granted tgt hentitles.row
    refine always_snoc.mpr ⟨h, hkept.timely hlogin rfl rfl rfl ?_⟩
    rcases hentitles.route with ⟨-, hgranted⟩ | ⟨-, -, hfresh⟩
    · -- in the login itself
      obtain ⟨before, after, hhistory⟩ := List.append_of_mem hgranted
      have hnew := ((hkept.originates before _ after hhistory).granted tgt rfl).2
      dsimp only at hnew ⊢
      omega
    · exact le_of_not_expired hL hfresh
  | issueProxy hproxy => exact absurd hproxy hendpoint

/-! ### The route `/proxy` -/

/-- A proxy-granting ticket validates iff it is found with its service ticket. -/
theorem run_validateProxyGrantingTicket (w : World) (ticket : Option String) :
    (proxyGranting w ticket = none ∧
      ∃ error, Eff.run (validateProxyGrantingTicket ticket) w = (.ok (.error error), w)) ∨
    ∃ found, proxyGranting w ticket = some found ∧
      Eff.run (validateProxyGrantingTicket ticket) w = (.ok (.ok found), w) := by
  rw [validateProxyGrantingTicket, run_bind_ok (run_get w)]
  cases ticket with
  | none => exact Or.inl ⟨rfl, _, rfl⟩
  | some ticket =>
    have hstart : proxyGranting w (some ticket) =
        (findProxyGrantingTicket w ticket).bind fun pgt =>
          (serviceTicketOf w pgt).map fun st => (pgt, st) := rfl
    rw [hstart]
    dsimp only
    cases hpgt : findProxyGrantingTicket w ticket with
    | none => exact Or.inl ⟨rfl, _, rfl⟩
    | some pgt =>
      rw [Option.bind_some]
      dsimp only
      cases hst : serviceTicketOf w pgt with
      | none => exact Or.inl ⟨rfl, _, rfl⟩
      | some st => exact Or.inr ⟨_, rfl, rfl⟩

/-- What `/proxy` adds to the history: the proxy ticket, if it issues one. -/
theorem history_proxy {w : World} {r : Request} (hendpoint : r.endpoint = .proxy) :
    ((proxyGranting w r.pgt = none ∨ r.targetService = none) ∧
      (handle config w r).history = w.history) ∨
    ∃ pgt st service, proxyGranting w r.pgt = some (pgt, st) ∧ r.targetService = some service ∧
      (handle config w r).history = w.history ++ [⟨w.requests, r, .issued
        ((contextOf config w r).proxyTicket ("PT-" ++ config.random w.drawn) service pgt st
          w.serviceTickets.nextId)⟩] := by
  have hrespond : respond (contextOf config w r) = proxy (contextOf config w r) :=
    respond_proxy hendpoint
  have hhandle : handle config w r =
      (Eff.run (proxy (contextOf config w r)) { w with requests := w.requests + 1 }).2 := by
    rw [← hrespond]
    rfl
  rw [hhandle, proxy]
  rcases run_validateProxyGrantingTicket { w with requests := w.requests + 1 } r.pgt with
    ⟨hnone, error, hrun⟩ | ⟨⟨pgt, st⟩, hsome, hrun⟩
  · refine Or.inl ⟨Or.inl hnone, ?_⟩
    rw [run_bind]
    simp only [contextOf, hrun]
    rfl
  · rw [run_bind]
    simp only [contextOf, hrun]
    cases hservice : r.targetService with
    | none => exact Or.inl ⟨Or.inr rfl, rfl⟩
    | some service => exact Or.inr ⟨pgt, st, service, hsome, rfl, rfl⟩

/-! ### One request -/

/-- A proxy ticket is issued in time iff its session is young enough. -/
theorem timely_proxyTicket_iff (c : Context) {w : World} (h : w.Kept config)
    {pgt : ProxyGrantingTicket} {st : SPTicket} (hst : serviceTicketOf w pgt = some st)
    (n : ℕ) (ticket service : String) (id : ℕ) :
    Timely L w.history ⟨n, c.request, .issued (c.proxyTicket ticket service pgt st id)⟩ ↔
      ∀ tgt ∈ tickets Event.grantedTicket w.history, st.grantedByTgtId = some tgt.id →
        c.now ≤ tgt.createdOn + L := by
  constructor
  · intro htimely tgt htgt hgranted
    obtain ⟨n, r, tgt', -, -, hlogged, hid, hle⟩ := htimely _ rfl
    -- the history names one ticket-granting ticket by this key
    have hkey : tgt'.id = tgt.id := Option.some.inj (hid.symm.trans hgranted)
    obtain rfl := h.recorded.granted.numbered.eq_of_key (mem_grantedTickets.mpr ⟨n, r, hlogged⟩)
      htgt hkey
    obtain ⟨before, after, hhistory⟩ := List.append_of_mem hlogged
    have hnew := ((h.originates before _ after hhistory).granted tgt' rfl).2
    simp only [Context.now] at hnew hle ⊢
    omega
  · intro hall
    obtain ⟨tgt, hlogin, hname, hgranted, -⟩ := h.sound.issued st (serviceTicketOf_eq_some hst).1
    have hlogged : tgt ∈ tickets Event.grantedTicket w.history := by
      obtain ⟨n, r, -, -, -, hin⟩ := hlogin
      exact mem_grantedTickets.mpr ⟨n, r, hin⟩
    exact h.timely hlogin rfl hname hgranted (hall tgt hlogged hgranted)

/-- The service ticket that is found with the proxy-granting ticket is its own. -/
theorem serviceTicketOf_of_proxyGranting {w : World} {ticket : Option String}
    {pgt : ProxyGrantingTicket} {st : SPTicket} (h : proxyGranting w ticket = some (pgt, st)) :
    serviceTicketOf w pgt = some st := by
  obtain ⟨pgt', -, h⟩ := Option.bind_eq_some_iff.mp h
  obtain ⟨st', hst, heq⟩ := Option.map_eq_some_iff.mp h
  obtain ⟨rfl, rfl⟩ := Prod.mk.inj heq
  exact hst

/-- **One request issues its tickets in time iff it does not come late to `/proxy`.** -/
theorem timely_handle_iff {w : World} {r : Request} (h : w.Kept config)
    (hL : config.maximumSessionLifetime = some (L : ℤ)) (hbefore : Always (Timely L) w.history) :
    Always (Timely L) (handle config w r).history ↔ ProxiedInTime L w r := by
  by_cases hendpoint : r.endpoint = .proxy
  · rcases history_proxy hendpoint with
      ⟨hnothing, heq⟩ | ⟨pgt, st, service, hfound, hservice, heq⟩
    · -- nothing is issued
      rw [heq]
      refine iff_of_true hbefore fun _ htarget pgt st hfound => ?_
      rcases hnothing with hnone | hnone
      · rw [hnone] at hfound
        cases hfound
      · rw [hnone] at htarget
        cases htarget
    · have hst := serviceTicketOf_of_proxyGranting hfound
      have hiff := timely_proxyTicket_iff (L := L) (contextOf config w r) h hst w.requests
        ("PT-" ++ config.random w.drawn) service w.serviceTickets.nextId
      simp only [contextOf, Context.now] at hiff
      rw [heq, always_snoc, contextOf, hiff]
      constructor
      · rintro ⟨-, hall⟩ _ _ pgt' st' hfound'
        obtain ⟨rfl, rfl⟩ := Prod.mk.inj (Option.some.inj (hfound.symm.trans hfound'))
        exact hall
      · intro hin
        exact ⟨hbefore, hin hendpoint (by rw [hservice]; rfl) pgt st hfound⟩
  · refine iff_of_true ?_ fun hproxy => absurd hproxy hendpoint
    have hboth : (handle config w r).Kept config ∧ Always (Timely L) (handle config w r).history :=
      inv_handle (I := fun w => w.Kept config ∧ Always (Timely L) w.history)
        (fun w' w'' hchange hw' => ⟨hw'.1.change hchange,
          timely_change hL hw'.1 hendpoint hw'.2 hchange⟩)
        (fun hw => ⟨hw.1.count _, hw.2⟩) ⟨h, hbefore⟩
    exact hboth.2

/-! ### Runs -/

theorem World.Kept.handle {w : World} (h : w.Kept config) (r : Request) :
    (handle config w r).Kept config :=
  inv_handle (fun _ _ hchange hw => hw.change hchange) (fun hw => hw.count _) h

/-- **Every ticket of a run is issued within the lifetime of its session iff no request is
given a proxy ticket after it.** -/
theorem timely_iff {config : Config} {L : ℕ} (hL : config.maximumSessionLifetime = some (L : ℤ))
    (rs : List Request) :
    Always (Timely L) (run config rs).history ↔
      Along (total (handle config)) (ProxiedInTime L) World.empty rs := by
  have hempty : Always (Timely L) World.empty.history := always_nil
  have halong : Always (Timely L) (run config rs).history ↔
      Along (total (handle config)) (fun w r => Always (Timely L) (handle config w r).history)
        World.empty rs := by
    constructor
    · intro hend
      refine (along_of_foldl (P := fun w : World => Always (Timely L) w.history)
        (fun w r h => ?_) hend).1
      -- the history only grows
      obtain ⟨more, hmore⟩ := history_foldl config w [r]
      rw [List.foldl_cons, List.foldl_nil] at hmore
      rw [hmore] at h
      exact h.of_append
    · intro hall
      exact foldl_inv_along (I := fun w : World => Always (Timely L) w.history)
        (fun _ _ _ h => h) hempty hall
  rw [halong]
  refine along_iff (I := fun w => w.Kept config ∧ Always (Timely L) w.history) ?_ ?_
    ⟨kept_empty config, hempty⟩
  · intro w r _ w' hw hafter hstep
    obtain rfl := Option.some.inj hstep
    exact ⟨hw.1.handle r, hafter⟩
  · intro w r _ hw
    exact timely_handle_iff hw.1 hL hw.2

/-! ### The condition is needed -/

/-- Sessions of a hundred seconds. -/
def shortConfig : Config := { plainConfig with maximumSessionLifetime := some ((100 : ℕ) : ℤ) }

/-- A login at 10, a proxy-granting ticket at 20, and a proxy ticket at 500. -/
def lateProxy : List Request :=
  [{ endpoint := .postLoginTicket, now := 0 },
   { endpoint := .postLogin, now := 10, service := some "http://app.example",
     username := some "an", lt := some "LT-0", auth := [fun _ _ _ => .accepted []] },
   { endpoint := .serviceValidate, now := 20, service := some "http://app.example",
     ticket := some "ST-3", pgtUrl := some "https://app.example/callback" },
   { endpoint := .proxy, now := 500, pgt := some "PGT-4",
     targetService := some "http://mail.example" }]

/-- The time of the request in which a ticket-granting ticket is granted. -/
def Entry.grantedAt (e : Entry) : Option ℤ := e.event.grantedTicket.map fun _ => e.request.now

/-- The proxy ticket is issued 490 seconds after the login. -/
theorem proxied_late : ¬ Always (Timely 100) (run shortConfig lateProxy).history := by
  intro h
  -- the proxy ticket is the last entry, and all logins are at 10
  have hlast : ((run shortConfig lateProxy).history.getLast?.map fun e =>
      (e.request.now, e.event.issuedTicket.isSome)) = some (500, true) := by decide +kernel
  have hlogins : ∀ now ∈ (run shortConfig lateProxy).history.filterMap Entry.grantedAt,
      now = 10 := by decide +kernel
  obtain ⟨e, hlast, heq⟩ := Option.map_eq_some_iff.mp hlast
  obtain ⟨hnow, hissued⟩ := Prod.mk.inj heq
  obtain ⟨before, hhistory⟩ := List.getLast?_eq_some_iff.mp hlast
  obtain ⟨st, hst⟩ := Option.isSome_iff_exists.mp hissued
  have hevent : e.event = .issued st := by
    cases hkind : e.event <;> simp [hkind, Event.issuedTicket] at hst
    rw [hst]
  obtain ⟨n, r, tgt, -, -, hgranted, -, hle⟩ := h before e [] hhistory st hevent
  have hlogin : r.now = 10 := by
    refine hlogins r.now (List.mem_filterMap.mpr ⟨⟨n, r, .granted tgt⟩, ?_, rfl⟩)
    rw [hhistory]
    exact List.mem_append_left _ hgranted
  omega

/-- What the theorem says of this run. -/
theorem timely_lateProxy_iff :
    Always (Timely 100) (run shortConfig lateProxy).history ↔
      Along (total (handle shortConfig)) (ProxiedInTime 100) World.empty lateProxy :=
  timely_iff rfl lateProxy

end BkPlatform.Cas
