import BkPlatform.Cas.Model

/-!
# Generating and validating tickets

The functions of the module `CASServer::CAS`.  A validator finds the row, tests
it, and then consumes it whatever the test says; the tests are functions of the
row found, so that the steps can also be taken one by one.

## Main definitions

* `Error`, `Message` — what a validator answers.
* `generateLoginTicket`, `generateServiceTicket`, … — a new row each.
* `loginTicketError`, `serviceTicketError` — the tests.
* `validateLoginTicket`, `validateServiceTicket`, … — the validators.

## Main results

* `loginTicketError_eq_none`, `serviceTicketError_eq_none` — when a ticket passes.
-/

namespace BkPlatform.Cas

open RubyString Eff

/-! ### Errors -/

/-- The codes of the protocol. -/
inductive ErrorCode
  | invalidRequest
  | invalidTicket
  | invalidService
  | internalError
  | badPgt
  deriving DecidableEq, Repr

/-- `CASServer::Model::Error`. -/
structure Error where
  code : ErrorCode
  message : String
  deriving DecidableEq, Repr

/-- The keys of the translated texts. -/
inductive Message
  | noLoginTicket
  | loginTicketAlreadyUsed
  | loginTimeout
  | invalidLoginTicket
  | incorrectUsernameOrPassword
  | invalidTargetService
  | unableToAuthenticate
  | noServiceParameterGiven
  | loggedInAs (username : String)
  | successLoggedOut (clickToContinue : Bool)
  | successLoggedIn
  | authenticator (message : String)
  deriving DecidableEq, Repr

/-! ### Generating tickets -/

/-- `String.random`. -/
def randomString (c : Context) : Handler String := do
  let w ← Eff.get
  Eff.modify fun w => { w with drawn := w.drawn + 1 }
  pure (c.config.random w.drawn)

/-- `generate_login_ticket`. -/
def generateLoginTicket (c : Context) : Handler String := do
  let random ← randomString c
  let ticket := "LT-" ++ random
  Eff.modify fun w =>
    { w with
      loginTickets := w.loginTickets.insert (fun id =>
        { id := id, ticket := ticket, createdOn := c.now, consumed := none,
          clientHostname := c.request.clientHostname }) fun _ => rfl }
  pure ticket

/-- `save!` of a new ticket-granting ticket. -/
def saveGrantingTicket (c : Context) (username ticket : String)
    (extraAttributes : ExtraAttributes) : Handler TicketGrantingTicket := do
  let w ← Eff.get
  let tgt : ℕ → TicketGrantingTicket := fun id =>
    { id := id, ticket := ticket, createdOn := c.now,
      clientHostname := c.request.clientHostname, username := username,
      extraAttributes := extraAttributes }
  Eff.modify fun w =>
    { w with
      grantingTickets := w.grantingTickets.insert tgt fun _ => rfl
      history := c.log w (.granted (tgt w.grantingTickets.nextId)) }
  pure (tgt w.grantingTickets.nextId)

/-- `generate_ticket_granting_ticket`; a row needs a username. -/
def generateTicketGrantingTicket (c : Context) (username : Option String)
    (extraAttributes : ExtraAttributes) : Handler TicketGrantingTicket := do
  let random ← randomString c
  match username with
  | none => Eff.raise .statementInvalid
  | some username => saveGrantingTicket c username ("TGC-" ++ random) extraAttributes

/-- `save!` of a new service or proxy ticket. -/
def saveTicket (c : Context) (st : ℕ → SPTicket) (hst : ∀ id, (st id).id = id) :
    Handler SPTicket := do
  let w ← Eff.get
  Eff.modify fun w =>
    { w with
      serviceTickets := w.serviceTickets.insert st hst
      history := c.log w (.issued (st w.serviceTickets.nextId)) }
  pure (st w.serviceTickets.nextId)

/-- `generate_service_ticket`; a row needs a username. -/
def generateServiceTicket (c : Context) (service : String) (username : Option String)
    (tgt : TicketGrantingTicket) : Handler SPTicket := do
  let random ← randomString c
  match username with
  | none => Eff.raise .statementInvalid
  | some username =>
    saveTicket c (fun id =>
      { id := id, ticket := "ST-" ++ random, service := service, createdOn := c.now,
        consumed := none, clientHostname := c.request.clientHostname, username := username,
        type := .serviceTicket, grantedByPgtId := none, grantedByTgtId := some tgt.id })
      fun _ => rfl

/-- `generate_proxy_ticket`; a row needs a service.  `st` is the service ticket of the
proxy-granting ticket. -/
def generateProxyTicket (c : Context) (targetService : Option String)
    (pgt : ProxyGrantingTicket) (st : SPTicket) : Handler SPTicket := do
  let random ← randomString c
  match targetService with
  | none => Eff.raise .statementInvalid
  | some targetService =>
    saveTicket c (fun id =>
      { id := id, ticket := "PT-" ++ random, service := targetService, createdOn := c.now,
        consumed := none, clientHostname := c.request.clientHostname, username := st.username,
        type := .proxyTicket, grantedByPgtId := some pgt.id,
        grantedByTgtId := st.grantedByTgtId })
      fun _ => rfl

/-- `save!` of a new proxy-granting ticket. -/
def saveProxyGrantingTicket (c : Context) (ticket iou : String) (st : SPTicket) :
    Handler ProxyGrantingTicket := do
  let w ← Eff.get
  let pgt : ℕ → ProxyGrantingTicket := fun id =>
    { id := id, ticket := ticket, createdOn := c.now,
      clientHostname := c.request.clientHostname, iou := iou, serviceTicketId := st.id }
  Eff.modify fun w =>
    { w with
      proxyGrantingTickets := w.proxyGrantingTickets.insert pgt fun _ => rfl
      history := c.log w (.proxyGranted (pgt w.proxyGrantingTickets.nextId)) }
  pure (pgt w.proxyGrantingTickets.nextId)

/-- `generate_proxy_granting_ticket`: the ticket is saved if the callback takes it. -/
def generateProxyGrantingTicket (c : Context) (pgtUrl : String) (st : SPTicket) :
    Handler (Option ProxyGrantingTicket) := do
  let ticket ← randomString c
  let iou ← randomString c
  match c.request.callback pgtUrl with
  | .raised => Eff.raise .other
  | .bad => pure none
  | .good => do
    let pgt ← saveProxyGrantingTicket c ("PGT-" ++ ticket) ("PGTIOU-" ++ iou) st
    pure (some pgt)

/-! ### Tests -/

/-- The test of `validate_login_ticket`, on the row found. -/
def loginTicketError (config : Config) (now : ℤ) (ticket : Option String)
    (lt : Option LoginTicket) : Option Message :=
  match ticket, lt with
  | none, _ => some .noLoginTicket
  | some _, none => some .invalidLoginTicket
  | some _, some lt =>
    if isConsumed lt then some .loginTicketAlreadyUsed
    else if now - lt.createdOn < config.maximumUnusedLoginTicketLifetime then none
    else some .loginTimeout

/-- `matches_service?`. -/
def SPTicket.matchesService (st : SPTicket) (service : String) : Bool :=
  cleanServiceUrl st.service == cleanServiceUrl service

/-- The test of `validate_service_ticket`, on the row found. -/
def serviceTicketError (config : Config) (now : ℤ) (service ticket : Option String)
    (st : Option SPTicket) (allowProxyTickets : Bool) : Option Error :=
  match service, ticket, st with
  | some service, some ticket, some st =>
    if isConsumed st then
      some ⟨.invalidTicket, "Ticket '" ++ ticket ++ "' has already been used up."⟩
    else if st.type == .proxyTicket && !allowProxyTickets then
      some ⟨.invalidTicket, "Ticket '" ++ ticket ++
        "' is a proxy ticket, but only service tickets are allowed here."⟩
    else if config.maximumUnusedServiceTicketLifetime < now - st.createdOn then
      some ⟨.invalidTicket, "Ticket '" ++ ticket ++ "' has expired."⟩
    else if !st.matchesService service then
      some ⟨.invalidService, "The ticket '" ++ ticket ++ "' belonging to user '" ++ st.username ++
        "' is valid, but the requested service '" ++ service ++
        "' does not match the service '" ++ st.service ++ "' associated with this ticket."⟩
    else none
  | some _, some ticket, none =>
    some ⟨.invalidTicket, "Ticket '" ++ ticket ++ "' not recognized."⟩
  | _, _, _ =>
    some ⟨.invalidRequest, "Ticket or service parameter was missing in the request."⟩

/-- When a login ticket passes the test. -/
theorem loginTicketError_eq_none {config : Config} {now : ℤ} {ticket : Option String}
    {lt : Option LoginTicket} :
    loginTicketError config now ticket lt = none ↔
      ticket.isSome = true ∧ ∃ row, lt = some row ∧ isConsumed row = false ∧
        now - row.createdOn < config.maximumUnusedLoginTicketLifetime := by
  unfold loginTicketError
  split
  · simp
  · simp
  · next row =>
    split
    · next hconsumed => simp [hconsumed]
    · next hconsumed =>
      split
      · next hage => simpa [hage] using hconsumed
      · next hage => simp [hage]

/-- When a service or proxy ticket passes the test. -/
theorem serviceTicketError_eq_none {config : Config} {now : ℤ} {service ticket : Option String}
    {st : Option SPTicket} {allowProxyTickets : Bool} :
    serviceTicketError config now service ticket st allowProxyTickets = none ↔
      ticket.isSome = true ∧ ∃ s row, service = some s ∧ st = some row ∧
        isConsumed row = false ∧ (row.type = .proxyTicket → allowProxyTickets = true) ∧
        now - row.createdOn ≤ config.maximumUnusedServiceTicketLifetime ∧
        row.matchesService s = true := by
  unfold serviceTicketError
  split
  · next s t row =>
    simp only [Option.isSome_some, true_and, Option.some.injEq, exists_and_left, exists_eq_left']
    split
    · next hconsumed => simp [hconsumed]
    · next hconsumed =>
      split
      · next hproxy =>
        simp only [Bool.and_eq_true, beq_iff_eq, Bool.not_eq_true'] at hproxy
        simp [hproxy]
      · next hproxy =>
        have hallowed : row.type = .proxyTicket → allowProxyTickets = true := by
          intro htype
          simpa [htype] using hproxy
        split
        · next hage =>
          apply iff_of_false (by simp)
          intro h
          omega
        · next hage =>
          split
          · next hservice =>
            apply iff_of_false (by simp)
            intro h
            simp [h.2.2.2] at hservice
          · next hservice =>
            refine iff_of_true rfl ⟨by simpa using hconsumed, hallowed, by omega, ?_⟩
            simpa using hservice
  · simp
  · next hnot _ =>
    -- a parameter is missing
    refine iff_of_false (by simp) ?_
    rintro ⟨ht, s, row, rfl, rfl, -⟩
    obtain ⟨t, rfl⟩ := Option.isSome_iff_exists.mp ht
    exact hnot s t row rfl rfl rfl

/-- A session is over. -/
def expired (config : Config) (now : ℤ) (tgt : TicketGrantingTicket) : Bool :=
  config.maximumSessionLifetime.any fun lifetime => decide (lifetime < now - tgt.createdOn)

/-! ### Validators -/

/-- `consume!` of a login ticket. -/
def consumeLoginTicket (c : Context) (lt : LoginTicket) : Handler Unit :=
  Eff.modify fun w =>
    { w with
      loginTickets := w.loginTickets.modify
        (fun row => if row.id = lt.id then Consumable.consume c.now row else row)
        fun row => by split <;> rfl }

/-- `lt.consume! if lt`. -/
def consumeFound (c : Context) : Option LoginTicket → Handler Unit
  | none => pure ()
  | some lt => consumeLoginTicket c lt

/-- `consume!` of a service or proxy ticket. -/
def consumeServiceTicket (c : Context) (st : SPTicket) : Handler SPTicket := do
  Eff.modify fun w =>
    { w with
      serviceTickets := w.serviceTickets.modify
        (fun row => if row.id = st.id then Consumable.consume c.now row else row)
        fun row => by split <;> rfl }
  pure (Consumable.consume c.now st)

/-- `validate_login_ticket`. -/
def validateLoginTicket (c : Context) (ticket : Option String) : Handler (Option Message) := do
  let w ← Eff.get
  consumeFound c (ticket.bind (findLoginTicket w))
  pure (loginTicketError c.config c.now ticket (ticket.bind (findLoginTicket w)))

/-- `destroy` of a ticket-granting ticket. -/
def destroyGrantingTicket (c : Context) (tgt : TicketGrantingTicket) : Handler Unit :=
  Eff.modify fun w =>
    { w with
      grantingTickets := w.grantingTickets.keep fun row => row.id != tgt.id
      history := c.log w (.destroyed tgt) }

/-- `validate_ticket_granting_ticket`. -/
def validateTicketGrantingTicket (c : Context) (ticket : Option String) :
    Handler (Option TicketGrantingTicket × Option String) := do
  let w ← Eff.get
  match ticket, findGrantingTicket w ticket with
  | none, _ => pure (none, some "No ticket granting ticket given.")
  | some ticket, none =>
    pure (none, some ("Invalid ticket granting ticket '" ++ ticket ++
      "' (no matching ticket found in the database)."))
  | some _, some tgt =>
    if expired c.config c.now tgt then do
      destroyGrantingTicket c tgt
      pure (some tgt, some "Your session has expired. Please log in again.")
    else pure (some tgt, none)

/-- The history records a validation without an error. -/
def logValidated (c : Context) (service : Option String) (st : SPTicket)
    (error : Option Error) : Handler Unit :=
  match service, error with
  | some service, none => Eff.modify fun w => { w with history := c.log w (.validated service st) }
  | _, _ => pure ()

/-- The row `validate_service_ticket` looks at. -/
def ticketFound (w : World) (service ticket : Option String) : Option SPTicket :=
  match service, ticket with
  | some _, some ticket => findServiceTicket w ticket
  | _, _ => none

/-- `validate_service_ticket`. -/
def validateServiceTicket (c : Context) (service ticket : Option String)
    (allowProxyTickets : Bool) : Handler (Option SPTicket × Option Error) := do
  let w ← Eff.get
  let found := ticketFound w service ticket
  let error := serviceTicketError c.config c.now service ticket found allowProxyTickets
  match found with
  | none => pure (none, error)
  | some st => do
    let st ← consumeServiceTicket c st
    logValidated c service st error
    pure (some st, error)

/-- What `validate_proxy_ticket` adds to the test of a proxy ticket. -/
def proxyTicketError (w : World) (pt : SPTicket) : Option Error :=
  match grantedByPgt w pt with
  | none =>
    some ⟨.internalError, "Proxy ticket '" ++ pt.ticket ++ "' belonging to user '" ++ pt.username ++
      "' is not associated with a proxy granting ticket."⟩
  | some pgt =>
    match serviceTicketOf w pgt with
    | none =>
      some ⟨.internalError, "Proxy granting ticket '" ++ pgt.ticket ++
        "' (associated with proxy ticket '" ++ pt.ticket ++ "' and belonging to user '" ++
        pt.username ++ "' is not associated with a service ticket."⟩
    | some _ => none

/-- `validate_proxy_ticket`. -/
def validateProxyTicket (c : Context) (service ticket : Option String) :
    Handler (Option SPTicket × Option Error) := do
  let (pt, error) ← validateServiceTicket c service ticket true
  match pt, error with
  | some st, none => do
    let w ← Eff.get
    let error := if st.type == .proxyTicket then proxyTicketError w st else none
    logValidated c service st error
    pure (some st, error)
  | _, _ => pure (pt, error)

/-- `validate_proxy_granting_ticket`, with the service ticket of the row found. -/
def validateProxyGrantingTicket (ticket : Option String) :
    Handler (Except Error (ProxyGrantingTicket × SPTicket)) := do
  let w ← Eff.get
  match ticket with
  | none => pure (.error ⟨.invalidRequest, "pgt parameter was missing in the request."⟩)
  | some ticket =>
    match findProxyGrantingTicket w ticket with
    | none =>
      pure (.error ⟨.badPgt, "Invalid proxy granting ticket '" ++ ticket ++
        "' (no matching ticket found in the database)."⟩)
    | some pgt =>
      match serviceTicketOf w pgt with
      | none =>
        pure (.error ⟨.internalError, "Proxy granting ticket '" ++ ticket ++
          "' is not associated with a service ticket."⟩)
      | some st => pure (.ok (pgt, st))

end BkPlatform.Cas
