import BkPlatform.Cas.Server

/-!
# What a request changes

Whatever a request does to the world is a sequence of a few changes: a ticket is
granted or issued, consumed or destroyed, an acceptance is recorded.  Each is
listed here once, together with what the server has made sure of when it makes
it.  An invariant of the server is then a matter of these changes; no other
module has to go through the routes again.

## Main definitions

* `Context.serviceTicket`, `Context.proxyTicket`, … — the new rows.
* `Context.Entitles`, `Context.Accepts` — what a ticket is issued on.
* `Change c` — one change by the request of `c`.

## Main results

* `changes_respond` — **every route is made of such changes.**
* `inv_handle`, `inv_run` — the rules for an invariant.
-/

namespace BkPlatform.Cas

open Eff Relation

/-! ### New rows -/

variable (c : Context)

/-- The row `generate_ticket_granting_ticket` saves. -/
def Context.grantingTicket (ticket username : String) (extraAttributes : ExtraAttributes)
    (id : ℕ) : TicketGrantingTicket where
  id := id
  ticket := ticket
  createdOn := c.now
  clientHostname := c.request.clientHostname
  username := username
  extraAttributes := extraAttributes

/-- The row `generate_service_ticket` saves. -/
def Context.serviceTicket (ticket service : String) (tgt : TicketGrantingTicket) (id : ℕ) :
    SPTicket where
  id := id
  ticket := ticket
  service := service
  createdOn := c.now
  consumed := none
  clientHostname := c.request.clientHostname
  username := tgt.username
  type := .serviceTicket
  grantedByPgtId := none
  grantedByTgtId := some tgt.id

/-- The row `generate_proxy_ticket` saves. -/
def Context.proxyTicket (ticket service : String) (pgt : ProxyGrantingTicket) (st : SPTicket)
    (id : ℕ) : SPTicket where
  id := id
  ticket := ticket
  service := service
  createdOn := c.now
  consumed := none
  clientHostname := c.request.clientHostname
  username := st.username
  type := .proxyTicket
  grantedByPgtId := some pgt.id
  grantedByTgtId := st.grantedByTgtId

/-- The row `generate_proxy_granting_ticket` saves. -/
def Context.proxyGrantingTicket (ticket iou : String) (st : SPTicket) (id : ℕ) :
    ProxyGrantingTicket where
  id := id
  ticket := ticket
  createdOn := c.now
  clientHostname := c.request.clientHostname
  iou := iou
  serviceTicketId := st.id

/-! ### Changes -/

/-- A service ticket may be issued on this ticket-granting ticket: it was granted in this
login, or the cookie names it and it is not expired. -/
structure Context.Entitles (w : World) (tgt : TicketGrantingTicket) : Prop where
  row : tgt ∈ w.grantingTickets.rows
  route : (c.request.endpoint = .postLogin ∧ ⟨c.number, c.request, .granted tgt⟩ ∈ w.history) ∨
    (c.request.endpoint = .getLogin ∧ c.request.tgt = some tgt.ticket ∧
      expired c.config c.now tgt = false)

/-- The service ticket has been accepted in this request. -/
structure Context.Accepts (w : World) (st : SPTicket) : Prop where
  row : st ∈ w.serviceTickets.rows
  type : st.type = .serviceTicket
  validated : ∃ service, ⟨c.number, c.request, .validated service st⟩ ∈ w.history

/-- One change of the world by the request of `c`. -/
inductive Change (w : World) : World → Prop
  /-- A random string that ends up in no table. -/
  | draw : Change w { w with drawn := w.drawn + 1 }
  | setLoginTickets (lts : Table LoginTicket LoginTicket.id) :
      Change w { w with loginTickets := lts }
  | authenticate (hendpoint : c.request.endpoint = .postLogin) :
      Change w
        { w with history := c.log w (.authenticated (c.request.loginUsername c.config)) }
  | grant {username : String} {extraAttributes : ExtraAttributes}
      (hendpoint : c.request.endpoint = .postLogin)
      (husername : c.request.loginUsername c.config = some username)
      (hauth : ⟨c.number, c.request, .authenticated (some username)⟩ ∈ w.history) :
      Change w
        { w with
          drawn := w.drawn + 1
          grantingTickets := w.grantingTickets.insert
            (c.grantingTicket ("TGC-" ++ c.config.random w.drawn) username extraAttributes)
            fun _ => rfl
          history := c.log w (.granted
            (c.grantingTicket ("TGC-" ++ c.config.random w.drawn) username extraAttributes
              w.grantingTickets.nextId)) }
  | issue {tgt : TicketGrantingTicket} {service : String} (h : c.Entitles w tgt) :
      Change w
        { w with
          drawn := w.drawn + 1
          serviceTickets := w.serviceTickets.insert
            (c.serviceTicket ("ST-" ++ c.config.random w.drawn) service tgt) fun _ => rfl
          history := c.log w (.issued
            (c.serviceTicket ("ST-" ++ c.config.random w.drawn) service tgt
              w.serviceTickets.nextId)) }
  | issueProxy {pgt : ProxyGrantingTicket} {st : SPTicket} {service : String}
      (hendpoint : c.request.endpoint = .proxy) (hnamed : c.request.pgt = some pgt.ticket)
      (hpgt : pgt ∈ w.proxyGrantingTickets.rows) (hst : serviceTicketOf w pgt = some st) :
      Change w
        { w with
          drawn := w.drawn + 1
          serviceTickets := w.serviceTickets.insert
            (c.proxyTicket ("PT-" ++ c.config.random w.drawn) service pgt st) fun _ => rfl
          history := c.log w (.issued
            (c.proxyTicket ("PT-" ++ c.config.random w.drawn) service pgt st
              w.serviceTickets.nextId)) }
  | grantProxy {st : SPTicket} (h : c.Accepts w st) :
      Change w
        { w with
          drawn := w.drawn + 2
          proxyGrantingTickets := w.proxyGrantingTickets.insert
            (c.proxyGrantingTicket ("PGT-" ++ c.config.random w.drawn)
              ("PGTIOU-" ++ c.config.random (w.drawn + 1)) st) fun _ => rfl
          history := c.log w (.proxyGranted
            (c.proxyGrantingTicket ("PGT-" ++ c.config.random w.drawn)
              ("PGTIOU-" ++ c.config.random (w.drawn + 1)) st w.proxyGrantingTickets.nextId)) }
  | consume {st : SPTicket} (hst : st ∈ w.serviceTickets.rows) :
      Change w
        { w with
          serviceTickets := w.serviceTickets.modify
            (fun row => if row.id = st.id then Consumable.consume c.now row else row)
            fun row => by split <;> rfl }
  | validate {service : String} {st : SPTicket} (hst : st ∈ w.serviceTickets.rows)
      (htype : st.type = .serviceTicket)
      (hservice : cleanServiceUrl service = cleanServiceUrl st.service) :
      Change w { w with history := c.log w (.validated service st) }
  /-- A session ends, because it is over or in a logout. -/
  | destroy {tgt : TicketGrantingTicket} (htgt : tgt ∈ w.grantingTickets.rows) :
      Change w
        { w with
          grantingTickets := w.grantingTickets.keep fun row => row.id != tgt.id
          history := c.log w (.destroyed tgt) }
  | destroyServiceTicket (st : SPTicket) (hendpoint : c.request.endpoint = .logout) :
      Change w { w with serviceTickets := w.serviceTickets.keep fun row => row.id != st.id }
  | destroyProxyGrantingTickets (username : String) (hendpoint : c.request.endpoint = .logout) :
      Change w
        { w with
          proxyGrantingTickets := w.proxyGrantingTickets.keep fun pgt =>
            !(serviceTicketOf w pgt).any fun st => st.username == username }

/-! ### Generating tickets -/

section Functions

variable {c : Context} {w₀ : World} {bad : World → Prop}

theorem changes_randomString : Keeps (ReflTransGen (Change c) w₀) (randomString c) :=
  fun _ hw => hw.tail .draw

theorem changes_generateLoginTicket :
    Keeps (ReflTransGen (Change c) w₀) (generateLoginTicket c) := by
  apply Keeps.bind changes_randomString
  intro random
  exact Keeps.bind (Triple.modify fun _ hw => hw.tail (.setLoginTickets _)) fun _ => Keeps.pure

/-- The ticket granted after a login is one to issue service tickets on. -/
theorem changes_generateTicketGrantingTicket {username : Option String}
    {extraAttributes : ExtraAttributes} (hendpoint : c.request.endpoint = .postLogin)
    (husername : c.request.loginUsername c.config = username) :
    Triple (fun w => ReflTransGen (Change c) w₀ w ∧
        ⟨c.number, c.request, .authenticated username⟩ ∈ w.history)
      (generateTicketGrantingTicket c username extraAttributes)
      (fun tgt w => ReflTransGen (Change c) w₀ w ∧ c.Entitles w tgt ∧
        username = some tgt.username)
      (ReflTransGen (Change c) w₀) := by
  rintro w ⟨hw, hauth⟩
  cases username with
  | none => exact hw.tail .draw
  | some username =>
    have hlogged : (⟨c.number, c.request, .granted (c.grantingTicket
        ("TGC-" ++ c.config.random w.drawn) username extraAttributes w.grantingTickets.nextId)⟩ :
          Entry) ∈ c.log w (.granted (c.grantingTicket ("TGC-" ++ c.config.random w.drawn)
            username extraAttributes w.grantingTickets.nextId)) :=
      List.mem_append_right _ (List.mem_singleton_self _)
    refine ⟨hw.tail (.grant hendpoint husername hauth), ⟨?_, Or.inl ⟨hendpoint, hlogged⟩⟩, rfl⟩
    exact Table.mem_insert.mpr (Or.inr rfl)

theorem changes_generateServiceTicket {service : String} {username : Option String}
    {tgt : TicketGrantingTicket} (husername : username = some tgt.username) :
    Triple (fun w => ReflTransGen (Change c) w₀ w ∧ c.Entitles w tgt)
      (generateServiceTicket c service username tgt) (fun _ => ReflTransGen (Change c) w₀)
      (ReflTransGen (Change c) w₀) := by
  subst husername
  rintro w ⟨hw, hentitled⟩
  exact hw.tail (.issue hentitled)

theorem changes_generateProxyTicket {targetService : Option String} {pgt : ProxyGrantingTicket}
    {st : SPTicket} (hendpoint : c.request.endpoint = .proxy)
    (hnamed : c.request.pgt = some pgt.ticket) :
    Triple (fun w => ReflTransGen (Change c) w₀ w ∧ pgt ∈ w.proxyGrantingTickets.rows ∧
        serviceTicketOf w pgt = some st)
      (generateProxyTicket c targetService pgt st) (fun _ => ReflTransGen (Change c) w₀)
      (ReflTransGen (Change c) w₀) := by
  rintro w ⟨hw, hpgt, hst⟩
  cases targetService with
  | none => exact hw.tail .draw
  | some targetService => exact hw.tail (.issueProxy hendpoint hnamed hpgt hst)

theorem changes_generateProxyGrantingTicket {pgtUrl : String} {st : SPTicket} :
    Triple (fun w => ReflTransGen (Change c) w₀ w ∧ c.Accepts w st)
      (generateProxyGrantingTicket c pgtUrl st) (fun _ => ReflTransGen (Change c) w₀)
      (ReflTransGen (Change c) w₀) := by
  rintro w ⟨hw, haccepted⟩
  -- the two random strings are drawn whatever the callback answers
  have hdrawn : ReflTransGen (Change c) w₀ { w with drawn := w.drawn + 1 + 1 } :=
    (hw.tail .draw).tail .draw
  have hgood : ReflTransGen (Change c) w₀ _ := hw.tail (.grantProxy haccepted)
  simp only [generateProxyGrantingTicket, run_bind, randomString, run_get, run_modify, run_pure]
  cases c.request.callback pgtUrl with
  | raised => exact hdrawn
  | bad => exact hdrawn
  | good => exact hgood

/-! ### Validating tickets -/

theorem changes_validateLoginTicket {ticket : Option String} :
    Keeps (ReflTransGen (Change c) w₀) (validateLoginTicket c ticket) := by
  apply Triple.bind Triple.read
  intro w
  refine Keeps.bind ?_ fun _ => Keeps.pure
  cases ticket.bind (findLoginTicket w) with
  | none => exact Keeps.pure
  | some lt => exact Triple.modify fun _ hw => hw.tail (.setLoginTickets _)

/-- A ticket-granting ticket that validates for the cookie of `GET /login` is one to issue
service tickets on. -/
theorem changes_validateTicketGrantingTicket {ticket : String}
    (hendpoint : c.request.endpoint = .getLogin) (hcookie : c.request.tgt = some ticket) :
    Triple (ReflTransGen (Change c) w₀) (validateTicketGrantingTicket c (some ticket))
      (fun a w => ReflTransGen (Change c) w₀ w ∧
        ∀ tgt, a.1 = some tgt → a.2 = none → c.Entitles w tgt)
      (ReflTransGen (Change c) w₀) := by
  apply Triple.bind Triple.get
  intro w
  cases hfind : findGrantingTicket w (some ticket) with
  | none => exact Triple.pure fun _ hw => ⟨hw.1, fun _ htgt => by cases htgt⟩
  | some tgt =>
    have hmem : tgt ∈ w.grantingTickets.rows := List.mem_of_find?_eq_some hfind
    have hticket : some tgt.ticket = some ticket := by
      simpa using List.find?_some hfind
    refine Triple.ite (fun _ => ?_) fun hfresh => ?_
    · -- the session is over: the row is destroyed, and an error returned
      rintro w' ⟨hw, rfl⟩
      exact ⟨hw.tail (.destroy hmem), fun _ _ herror => by cases herror⟩
    · refine Triple.pure ?_
      rintro w' ⟨hw, rfl⟩
      refine ⟨hw, fun tgt' htgt' _ => ?_⟩
      obtain rfl : tgt = tgt' := Option.some.inj htgt'
      exact ⟨hmem, Or.inr ⟨hendpoint, hcookie.trans hticket.symm, by simpa using hfresh⟩⟩

/-- A ticket that is found is a service ticket of the table. -/
theorem ticketFound_eq_some {w : World} {service ticket : Option String} {st : SPTicket}
    (h : ticketFound w service ticket = some st) :
    ∃ s t, service = some s ∧ ticket = some t ∧ st ∈ w.serviceTickets.rows ∧
      st.type = .serviceTicket ∧ st.ticket = t := by
  unfold ticketFound at h
  split at h
  · next s t =>
    have hnamed : st.isNamed t = true := List.find?_some h
    rw [SPTicket.isNamed, Bool.and_eq_true, beq_iff_eq, beq_iff_eq] at hnamed
    exact ⟨s, t, rfl, rfl, List.mem_of_find?_eq_some h, hnamed.1, hnamed.2⟩
  · cases h

/-- What a validator has found out about the ticket it returns. -/
def Passes (service : Option String) (w : World) (st : SPTicket) : Prop :=
  st ∈ w.serviceTickets.rows ∧ st.type = .serviceTicket ∧
    ∃ s, service = some s ∧ cleanServiceUrl s = cleanServiceUrl st.service

/-- Recording the acceptance of a ticket that has been checked. -/
theorem changes_logValidated {service : Option String} {st : SPTicket} {error : Option Error} :
    Triple (fun w => ReflTransGen (Change c) w₀ w ∧ (error = none → Passes service w st))
      (logValidated c service st error)
      (fun _ w => ReflTransGen (Change c) w₀ w ∧
        (error = none → Passes service w st ∧ c.Accepts w st)) bad := by
  rintro w ⟨hw, hpasses⟩
  cases error with
  | some error =>
    have hquiet : logValidated c service st (some error) = Pure.pure () := by
      cases service <;> rfl
    rw [hquiet]
    exact ⟨hw, fun herror => by cases herror⟩
  | none =>
    obtain ⟨hst, htype, s, rfl, hservice⟩ := hpasses rfl
    refine ⟨hw.tail (.validate hst htype hservice), fun _ => ⟨⟨hst, htype, s, rfl, hservice⟩, ?_⟩⟩
    exact ⟨hst, htype, s, List.mem_append_right _ (List.mem_singleton_self _)⟩

/-- A ticket that validates has been accepted in this request. -/
theorem changes_validateServiceTicket {service ticket : Option String}
    {allowProxyTickets : Bool} :
    Triple (ReflTransGen (Change c) w₀) (validateServiceTicket c service ticket allowProxyTickets)
      (fun a w => ReflTransGen (Change c) w₀ w ∧
        ∀ st, a = (some st, none) → Passes service w st ∧ c.Accepts w st)
      (ReflTransGen (Change c) w₀) := by
  apply Triple.bind Triple.get
  intro w
  cases hfound : ticketFound w service ticket with
  | none => exact Triple.pure fun _ hw => ⟨hw.1, fun st heq => by cases heq⟩
  | some st =>
    obtain ⟨s, t, rfl, rfl, hst, htype, -⟩ := ticketFound_eq_some hfound
    refine Triple.bind (M := fun st' w' => ReflTransGen (Change c) w₀ w' ∧
      (serviceTicketError c.config c.now (some s) (some t) (some st) allowProxyTickets = none →
        Passes (some s) w' st')) ?_ fun st' => ?_
    · rintro w' ⟨hw, rfl⟩
      refine ⟨hw.tail (.consume hst), fun herror => ⟨?_, htype, s, rfl, ?_⟩⟩
      · -- the row that is returned is the one that has been saved
        exact List.mem_map.mpr ⟨st, hst, if_pos rfl⟩
      · obtain ⟨-, s', row, hs, hrow, -, -, -, hmatches⟩ := serviceTicketError_eq_none.mp herror
        obtain rfl := Option.some.inj hs
        obtain rfl := Option.some.inj hrow
        exact (beq_iff_eq.mp hmatches).symm
    · refine Triple.bind changes_logValidated fun _ => Triple.pure fun w' hw' => ⟨hw'.1, ?_⟩
      intro st'' heq
      obtain ⟨hsome, herror⟩ := Prod.mk.inj heq
      obtain rfl := Option.some.inj hsome
      exact hw'.2 herror

theorem changes_validateProxyTicket {service ticket : Option String} :
    Triple (ReflTransGen (Change c) w₀) (validateProxyTicket c service ticket)
      (fun a w => ReflTransGen (Change c) w₀ w ∧ ∀ st, a = (some st, none) → c.Accepts w st)
      (ReflTransGen (Change c) w₀) := by
  apply Triple.bind changes_validateServiceTicket
  rintro ⟨pt, error⟩
  cases pt with
  | none => exact Triple.pure fun _ hw => ⟨hw.1, fun _ heq => by cases heq⟩
  | some st =>
    cases error with
    | some error => exact Triple.pure fun _ hw => ⟨hw.1, fun _ heq => by cases heq⟩
    | none =>
      apply Triple.bind Triple.read
      intro w
      -- the same ticket is recorded once more, after the second test
      refine Triple.bind (changes_logValidated.pre fun w' hw' => ⟨hw'.1, fun _ => ?_⟩) fun _ =>
        Triple.pure fun w' hw' => ⟨hw'.1, fun st' heq => ?_⟩
      · exact (hw'.2 st rfl).1
      · obtain ⟨hsome, herror⟩ := Prod.mk.inj heq
        obtain rfl := Option.some.inj hsome
        exact (hw'.2 herror).2

theorem serviceTicketOf_eq_some {w : World} {pgt : ProxyGrantingTicket} {st : SPTicket}
    (h : serviceTicketOf w pgt = some st) :
    st ∈ w.serviceTickets.rows ∧ st.type = .serviceTicket ∧ st.id = pgt.serviceTicketId := by
  have hfound := List.find?_some h
  simp only [Bool.and_eq_true, beq_iff_eq] at hfound
  exact ⟨List.mem_of_find?_eq_some h, hfound.1, hfound.2⟩

/-- A proxy-granting ticket that validates is one of the table, with its service ticket. -/
theorem changes_validateProxyGrantingTicket {ticket : Option String} :
    Triple (ReflTransGen (Change c) w₀) (validateProxyGrantingTicket ticket)
      (fun a w => ReflTransGen (Change c) w₀ w ∧ ∀ pgt st, a = .ok (pgt, st) →
        ticket = some pgt.ticket ∧ pgt ∈ w.proxyGrantingTickets.rows ∧
          serviceTicketOf w pgt = some st)
      (ReflTransGen (Change c) w₀) := by
  apply Triple.bind Triple.get
  intro w
  cases ticket with
  | none => exact Triple.pure fun _ hw => ⟨hw.1, fun _ _ heq => by cases heq⟩
  | some ticket =>
    dsimp only
    cases hpgt : findProxyGrantingTicket w ticket with
    | none => exact Triple.pure fun _ hw => ⟨hw.1, fun _ _ heq => by cases heq⟩
    | some pgt =>
      dsimp only
      cases hst : serviceTicketOf w pgt with
      | none => exact Triple.pure fun _ hw => ⟨hw.1, fun _ _ heq => by cases heq⟩
      | some st =>
        refine Triple.pure ?_
        rintro w' ⟨hw, rfl⟩
        refine ⟨hw, fun pgt' st' heq => ?_⟩
        obtain ⟨rfl, rfl⟩ := Prod.mk.inj (Except.ok.inj heq)
        have hnamed : pgt.ticket = ticket := by simpa using List.find?_some hpgt
        exact ⟨congrArg some hnamed.symm, List.mem_of_find?_eq_some hpgt, hst⟩

/-! ### The routes -/

theorem changes_loginForm {message : Option Message} :
    Keeps (ReflTransGen (Change c) w₀) (loginForm c message) :=
  Keeps.bind changes_generateLoginTicket fun _ => Keeps.pure

/-- A redirect changes nothing. -/
theorem keeps_redirectWithTicket {I : World → Prop} {service : String} {st : SPTicket}
    {invalid : Handler Response} (hinvalid : Keeps I invalid) :
    Keeps I (redirectWithTicket c service st invalid) := by
  unfold redirectWithTicket
  split
  · exact Keeps.pure
  · exact hinvalid
  · exact Keeps.raise

theorem changes_cookieTicket (hendpoint : c.request.endpoint = .getLogin) :
    Triple (ReflTransGen (Change c) w₀) (cookieTicket c)
      (fun a w => ReflTransGen (Change c) w₀ w ∧ ∀ tgt, a = some tgt → c.Entitles w tgt)
      (ReflTransGen (Change c) w₀) := by
  unfold cookieTicket
  cases hcookie : c.request.tgt with
  | none => exact Triple.pure fun _ hw => ⟨hw, fun _ htgt => by cases htgt⟩
  | some tgc =>
    apply Triple.bind (changes_validateTicketGrantingTicket hendpoint hcookie)
    rintro ⟨tgt, error⟩
    refine Triple.pure fun w hw => ⟨hw.1, fun tgt' htgt' => ?_⟩
    cases error with
    | none => exact hw.2 tgt' htgt' rfl
    | some message => cases htgt'

theorem changes_getLogin (hendpoint : c.request.endpoint = .getLogin) :
    Keeps (ReflTransGen (Change c) w₀) (getLogin c) := by
  apply Triple.bind (changes_cookieTicket hendpoint)
  intro tgt
  have hform : ∀ message, Triple (fun w => ReflTransGen (Change c) w₀ w ∧
      ∀ t, tgt = some t → c.Entitles w t) (loginForm c message)
      (fun _ => ReflTransGen (Change c) w₀) (ReflTransGen (Change c) w₀) :=
    fun message => changes_loginForm.pre fun _ hw => hw.1
  cases c.request.cleanService with
  | none => exact Triple.ite (fun _ => hform _) fun _ => hform _
  | some service =>
    cases tgt with
    | none => exact Triple.ite (fun _ => Triple.pure fun _ hw => hw.1) fun _ => hform _
    | some tgt =>
      apply Triple.ite (fun _ => hform _)
      intro _
      -- single sign-on: the ticket is issued on the cookie
      refine Triple.bind ((changes_generateServiceTicket rfl).pre fun w hw => ?_) fun st =>
        keeps_redirectWithTicket changes_loginForm
      exact ⟨hw.1, hw.2 tgt rfl⟩

/-- Where an authenticator has accepted the username, the history says so. -/
theorem changes_authenticate {password service : Option String} (auth : List Authenticator)
    (hendpoint : c.request.endpoint = .postLogin) :
    Triple (ReflTransGen (Change c) w₀)
      (authenticate c (c.request.loginUsername c.config) password service auth)
      (fun a w => ReflTransGen (Change c) w₀ w ∧ (a.isSome = true →
        ⟨c.number, c.request, .authenticated (c.request.loginUsername c.config)⟩ ∈ w.history))
      (ReflTransGen (Change c) w₀) := by
  induction auth with
  | nil => exact Triple.pure fun _ hw => ⟨hw, fun h => by cases h⟩
  | cons a rest ih =>
    rw [authenticate]
    split
    · intro w hw
      refine ⟨hw.tail (.authenticate hendpoint), fun _ => ?_⟩
      exact List.mem_append_right _ (List.mem_singleton_self _)
    · exact ih
    · exact Triple.raise fun _ hw => hw

theorem changes_login {lt : String} (hendpoint : c.request.endpoint = .postLogin) :
    Keeps (ReflTransGen (Change c) w₀) (login c lt) := by
  apply Triple.bind (changes_authenticate c.request.auth hendpoint)
  intro credentials
  cases credentials with
  | none => exact Triple.pure fun _ hw => hw.1
  | some extraAttributes =>
    refine Triple.bind ((changes_generateTicketGrantingTicket hendpoint rfl).pre
      fun w hw => ⟨hw.1, hw.2 rfl⟩) fun tgt => ?_
    split
    · exact Triple.pure fun _ hw => hw.1
    · apply Triple.ite (fun _ => Triple.pure fun _ hw => hw.1)
      intro _
      -- the service ticket is issued in the login that has granted `tgt`
      rintro w ⟨hw, hentitled, husername⟩
      exact Triple.bind (changes_generateServiceTicket husername) (fun st =>
        keeps_redirectWithTicket Keeps.pure) w ⟨hw, hentitled⟩

theorem changes_postLogin (hendpoint : c.request.endpoint = .postLogin) :
    Keeps (ReflTransGen (Change c) w₀) (postLogin c) := by
  apply Keeps.bind changes_validateLoginTicket
  intro error
  apply Keeps.bind changes_generateLoginTicket
  intro lt
  cases error with
  | some message => exact Keeps.pure
  | none =>
    apply Triple.rescue (changes_login hendpoint)
    intro e
    unfold authenticatorFailed
    split
    · exact Keeps.bind changes_generateLoginTicket fun _ => Keeps.pure
    · exact Keeps.raise

/-- A notification changes nothing. -/
theorem keeps_notifyService {I : World → Prop} {st : SPTicket} : Keeps I (notifyService c st) := by
  unfold notifyService sendLogoutNotification
  refine Keeps.ite (fun _ => ?_) fun _ => Keeps.pure
  split
  · exact Keeps.raise
  · exact Keeps.ite (fun _ => Keeps.raise) fun _ => Keeps.pure

/-- The service tickets go, and the ticket-granting ticket stays where it was. -/
theorem changes_destroyServiceTickets {tgt : TicketGrantingTicket} (sts : List SPTicket)
    (hendpoint : c.request.endpoint = .logout) :
    Keeps (fun w => ReflTransGen (Change c) w₀ w ∧ tgt ∈ w.grantingTickets.rows)
      (destroyServiceTickets c sts) := by
  induction sts with
  | nil => exact Keeps.pure
  | cons st rest ih =>
    apply Keeps.bind keeps_notifyService
    intro _
    refine Keeps.bind (Triple.modify fun w hw => ?_) fun _ => ih
    exact ⟨hw.1.tail (.destroyServiceTicket st hendpoint), hw.2⟩

theorem changes_endSession {tgt : TicketGrantingTicket}
    (hendpoint : c.request.endpoint = .logout) :
    Triple (fun w => ReflTransGen (Change c) w₀ w ∧ tgt ∈ w.grantingTickets.rows)
      (endSession c tgt) (fun _ => ReflTransGen (Change c) w₀) (ReflTransGen (Change c) w₀) := by
  apply Triple.bind Triple.read
  intro w
  refine Triple.bind ((changes_destroyServiceTickets _ hendpoint).weaken (fun _ hw => hw)
    (fun _ _ hw => hw) fun _ hw => hw.1) fun _ => ?_
  refine Triple.bind (M := fun _ w => ReflTransGen (Change c) w₀ w ∧ tgt ∈ w.grantingTickets.rows)
    (Triple.modify fun w hw => ?_) fun _ => Triple.modify fun w hw => ?_
  · exact ⟨hw.1.tail (.destroyProxyGrantingTickets tgt.username hendpoint), hw.2⟩
  · exact hw.1.tail (.destroy hw.2)

theorem changes_logout (hendpoint : c.request.endpoint = .logout) :
    Keeps (ReflTransGen (Change c) w₀) (logout c) := by
  refine Keeps.bind (Triple.bind Triple.get fun w => ?_) fun _ => ?_
  · cases hfind : findGrantingTicket w c.request.tgt with
    | none => exact Triple.pure fun _ hw => hw.1
    | some tgt =>
      refine Triple.transaction ((changes_endSession hendpoint).pre ?_) fun _ hw => hw.1
      rintro w' ⟨hw, rfl⟩
      exact ⟨hw, List.mem_of_find?_eq_some hfind⟩
  · apply Keeps.bind changes_generateLoginTicket
    intro lt
    split <;> exact Keeps.pure

theorem changes_validate : Keeps (ReflTransGen (Change c) w₀) (validate c) := by
  refine Keeps.ite (fun _ => Triple.bind changes_validateServiceTicket ?_) fun _ => Keeps.pure
  rintro ⟨st, error⟩
  refine Triple.pre (P := ReflTransGen (Change c) w₀) ?_ fun _ hw => hw.1
  cases st <;> cases error
  · exact Keeps.raise
  · exact Keeps.pure
  · exact Keeps.pure
  · exact Keeps.pure

/-- A proxy-granting ticket is granted on the ticket accepted in this request. -/
theorem changes_grantProxy {st : SPTicket} :
    Triple (fun w => ReflTransGen (Change c) w₀ w ∧ c.Accepts w st) (grantProxy c st)
      (fun _ => ReflTransGen (Change c) w₀) (ReflTransGen (Change c) w₀) := by
  unfold grantProxy
  split
  · exact Triple.pure fun _ hw => hw.1
  · exact Triple.bind changes_generateProxyGrantingTicket fun _ => Keeps.pure

/-- Looking up the attributes changes nothing. -/
theorem keeps_extraAttributesOf {I : World → Prop} {st : SPTicket} :
    Keeps I (extraAttributesOf st) := by
  apply Triple.bind Triple.read
  intro w
  split
  · exact Keeps.pure
  · exact Keeps.raise

theorem changes_serviceValidate : Keeps (ReflTransGen (Change c) w₀) (serviceValidate c) := by
  refine Keeps.ite (fun _ => Triple.bind changes_validateServiceTicket ?_) fun _ => Keeps.pure
  rintro ⟨st, error⟩
  cases st <;> cases error
  · exact Triple.raise fun _ hw => hw.1
  · exact Triple.pure fun _ hw => hw.1
  · refine Triple.bind (changes_grantProxy.pre fun w hw => ⟨hw.1, (hw.2 _ rfl).2⟩) fun _ => ?_
    exact Keeps.bind keeps_extraAttributesOf fun _ => Keeps.pure
  · exact Triple.pure fun _ hw => hw.1

/-- Looking up the proxies changes nothing. -/
theorem triple_proxiesOf {I J : World → Prop} {pt : SPTicket} (h : ∀ w, I w → J w) :
    Triple I (proxiesOf pt) (fun _ => I) J := by
  apply Triple.bind Triple.read
  intro w
  refine Triple.ite (fun _ => ?_) fun _ => Triple.pure fun _ hw => hw
  split
  · exact Triple.pure fun _ hw => hw
  · exact Triple.raise h

theorem changes_proxyValidate : Keeps (ReflTransGen (Change c) w₀) (proxyValidate c) := by
  refine Keeps.ite (fun _ => Triple.bind changes_validateProxyTicket ?_) fun _ => Keeps.pure
  rintro ⟨t, error⟩
  cases t <;> cases error
  · exact Triple.raise fun _ hw => hw.1
  · exact Triple.pure fun _ hw => hw.1
  · refine Triple.bind (triple_proxiesOf fun _ hw => hw.1) fun _ => ?_
    refine Triple.bind (changes_grantProxy.pre fun w hw => ⟨hw.1, hw.2 _ rfl⟩) fun _ => ?_
    exact Keeps.bind keeps_extraAttributesOf fun _ => Keeps.pure
  · exact Triple.pure fun _ hw => hw.1

theorem changes_proxy (hendpoint : c.request.endpoint = .proxy) :
    Keeps (ReflTransGen (Change c) w₀) (proxy c) := by
  apply Triple.bind changes_validateProxyGrantingTicket
  intro validated
  cases validated with
  | error e => exact Triple.pure fun _ hw => hw.1
  | ok found =>
    rintro w ⟨hw, hfound⟩
    obtain ⟨hnamed, hpgt, hst⟩ := hfound found.1 found.2 rfl
    exact Triple.bind (changes_generateProxyTicket hendpoint hnamed) (fun _ => Keeps.pure) w
      ⟨hw, hpgt, hst⟩

/-- **Every route is made of changes.** -/
theorem changes_respond : Keeps (ReflTransGen (Change c) w₀) (respond c) := by
  unfold respond
  cases hendpoint : c.request.endpoint with
  | getLogin => exact changes_getLogin hendpoint
  | postLogin => exact changes_postLogin hendpoint
  | postLoginTicket => exact Keeps.bind changes_generateLoginTicket fun _ => Keeps.pure
  | validate => exact changes_validate
  | serviceValidate => exact changes_serviceValidate
  | proxyValidate => exact changes_proxyValidate
  | proxy => exact changes_proxy hendpoint
  | logout => exact changes_logout hendpoint

end Functions

/-! ### Invariants -/

section Invariants

variable {config : Config} {I : World → Prop}

/-- What a request is handled in. -/
def contextOf (config : Config) (w : World) (r : Request) : Context := ⟨config, w.requests, r⟩

/-- A request changes the world by its changes, after it has been counted. -/
theorem handle_changes (config : Config) (w : World) (r : Request) :
    ReflTransGen (Change (contextOf config w r)) { w with requests := w.requests + 1 }
      (handle config w r) :=
  changes_respond.state .refl

/-- **What every change of a request keeps, the request keeps.** -/
theorem inv_handle {w : World} {r : Request}
    (hI : ∀ w' w'', Change (contextOf config w r) w' w'' → I w' → I w'')
    (hcount : I w → I { w with requests := w.requests + 1 }) (hw : I w) : I (handle config w r) :=
  inv_of_steps hI (handle_changes config w r) (hcount hw)

/-- A change leaves what is in the history where it is. -/
theorem history_change {c : Context} {w w' : World} (h : Change c w w') :
    ∃ more, w'.history = w.history ++ more := by
  cases h with
  | draw | setLoginTickets | consume | destroyServiceTicket | destroyProxyGrantingTickets =>
    exact ⟨[], (List.append_nil _).symm⟩
  | authenticate | grant | issue | issueProxy | grantProxy | validate | destroy =>
    exact ⟨[_], rfl⟩

/-- And so do all requests. -/
theorem history_foldl (config : Config) (w : World) (rs : List Request) :
    ∃ more, (rs.foldl (handle config) w).history = w.history ++ more := by
  let Grown : World → Prop := fun w' => ∃ more, w'.history = w.history ++ more
  refine Run.foldl_inv (I := Grown) (fun w' r hw' => ?_) ⟨[], (List.append_nil _).symm⟩ rs
  refine inv_handle (I := Grown) (fun v v' hchange hv => ?_) (fun h => h) hw'
  obtain ⟨more, hmore⟩ := hv
  obtain ⟨next, hnext⟩ := history_change hchange
  exact ⟨more ++ next, by rw [hnext, hmore, List.append_assoc]⟩

/-- **What every change of every request keeps holds after every run.** -/
theorem inv_run (hI : ∀ c w w', c.config = config → Change c w w' → I w → I w')
    (hcount : ∀ w n, I w → I { w with requests := n }) (hempty : I World.empty)
    (rs : List Request) : I (run config rs) := by
  refine Run.foldl_inv (fun w r hw => ?_) hempty rs
  exact inv_handle (fun w' w'' => hI _ w' w'' rfl) (hcount w _) hw

end Invariants

end BkPlatform.Cas
