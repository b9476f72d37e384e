import BkPlatform.Lib.Run
import BkPlatform.Cas.Tickets

/-!
# The routes

Each route of the server handles one request.  An exception that nobody rescues
ends the request; what it has done to the tables stays, except within the
transaction of `/logout`.  A `redirect` ends the handling of a request as well.

The pages are left out but for what they say: the login ticket, the message and
the status.

## Main definitions

* `Response` — what a request is answered with.
* `getLogin`, `postLogin`, … — the routes.
* `handle`, `answer`, `run` — one request, and a run of requests.
-/

namespace BkPlatform.Cas

open RubyString Eff

/-- What a request is answered with. -/
inductive Response
  | page (status : ℕ) (message : Option Message) (lt : String)
  | loginTicket (lt : String)
  | redirect (url : String)
  | success (username : String) (extraAttributes : Option ExtraAttributes)
      (pgtiou : Option String) (proxies : List String)
  | proxySuccess (pt : String)
  | failure (status : ℕ) (error : Error)
  deriving DecidableEq, Repr

/-- `response_status_from_error`. -/
def responseStatusFromError (error : Error) : ℕ :=
  match error.code with
  | .invalidRequest | .invalidTicket | .invalidService | .badPgt => 422
  | .internalError => 500

/-- The answer to a request that is refused. -/
def refuse (error : Error) : Response := .failure (responseStatusFromError error) error

/-- The answer to a service whose address is not allowed. -/
def notAllowed : Response :=
  refuse ⟨.invalidRequest, "The IP address of this service has not been allowed"⟩

/-- `params['gateway'] == 'true' || params['gateway'] == '1'`. -/
def Request.isGateway (r : Request) : Bool := r.gateway == some "true" || r.gateway == some "1"

/-- `@service` of the login and validation routes. -/
def Request.cleanService (r : Request) : Option String := r.service.map cleanServiceUrl

/-! ### Login -/

/-- The username as `POST /login` prepares it. -/
def Request.loginUsername (config : Config) (r : Request) : Option String :=
  r.username.map fun username =>
    if config.downcaseUsername then downcase (strip username) else strip username

/-- The login form, with a login ticket. -/
def loginForm (c : Context) (message : Option Message) : Handler Response := do
  let lt ← generateLoginTicket c
  pure (.page 200 message lt)

/-- `redirect service_with_ticket`; an invalid URI is rescued. -/
def redirectWithTicket (c : Context) (service : String) (st : SPTicket)
    (invalid : Handler Response) : Handler Response :=
  match serviceUriWithTicket c.config.uriParse service st.ticket with
  | .ok url => pure (.redirect url)
  | .error .invalidUri => invalid
  | .error e => Eff.raise e

/-- The ticket-granting ticket of the cookie, if it is valid. -/
def cookieTicket (c : Context) : Handler (Option TicketGrantingTicket) := do
  match c.request.tgt with
  | none => pure none
  | some tgc => do
    let (tgt, error) ← validateTicketGrantingTicket c (some tgc)
    pure (if error.isNone then tgt else none)

/-- The message above the login form. -/
def loginMessage (c : Context) (tgt : Option TicketGrantingTicket) : Option Message :=
  if c.request.redirectionLoopIntercepted.isSome then some .unableToAuthenticate
  else tgt.map fun tgt => .loggedInAs tgt.username

/-- `GET /login`. -/
def getLogin (c : Context) : Handler Response := do
  let tgt ← cookieTicket c
  match c.request.cleanService, tgt with
  | some service, some tgt =>
    if c.request.renew.isSome then loginForm c (loginMessage c (some tgt))
    else do
      let st ← generateServiceTicket c service (some tgt.username) tgt
      redirectWithTicket c service st (loginForm c (some .invalidTargetService))
  | some service, none =>
    if c.request.renew.isNone && c.request.isGateway then pure (.redirect service)
    else loginForm c (loginMessage c none)
  | none, tgt =>
    if c.request.isGateway then loginForm c (some .noServiceParameterGiven)
    else loginForm c (loginMessage c tgt)

/-- The authenticators are asked one after the other, up to the first that accepts. -/
def authenticate (c : Context) (username password service : Option String) :
    List Authenticator → Handler (Option ExtraAttributes)
  | [] => pure none
  | auth :: rest =>
    match auth username password service with
    | .accepted extraAttributes => do
      Eff.modify fun w => { w with history := c.log w (.authenticated username) }
      pure (some extraAttributes)
    | .refused => authenticate c username password service rest
    | .raised e => Eff.raise e

/-- `POST /login` after the login ticket has been accepted; `lt` is the next one. -/
def login (c : Context) (lt : String) : Handler Response := do
  let service := c.request.cleanService
  let username := c.request.loginUsername c.config
  let credentials ← authenticate c username c.request.password service c.request.auth
  match credentials with
  | none => pure (.page 401 (some .incorrectUsernameOrPassword) lt)
  | some extraAttributes => do
    let tgt ← generateTicketGrantingTicket c username extraAttributes
    match service with
    | none => pure (.page 200 (some .successLoggedIn) lt)
    | some service =>
      if isBlank service then pure (.page 200 (some .successLoggedIn) lt)
      else do
        let st ← generateServiceTicket c service username tgt
        redirectWithTicket c service st (pure (.page 200 (some .invalidTargetService) lt))

/-- The rescue of an `AuthenticatorError`. -/
def authenticatorFailed (c : Context) : Raised → Handler Response
  | .authenticatorError message => do
    let lt ← generateLoginTicket c
    pure (.page 401 (some (.authenticator message)) lt)
  | e => Eff.raise e

/-- `POST /login`. -/
def postLogin (c : Context) : Handler Response := do
  let error ← validateLoginTicket c c.request.lt
  let lt ← generateLoginTicket c
  match error with
  | some message => pure (.page 500 (some message) lt)
  | none => Eff.rescue (login c lt) (authenticatorFailed c)

/-- `POST /loginTicket`. -/
def postLoginTicket (c : Context) : Handler Response := do
  let lt ← generateLoginTicket c
  pure (.loginTicket lt)

/-! ### Logout -/

/-- `send_logout_notification_for_service_ticket`, as far as it raises: the service has to
be a hierarchical URI.  What the service answers is ignored. -/
def sendLogoutNotification (c : Context) (st : SPTicket) : Handler Unit :=
  match c.config.uriParse st.service with
  | none => Eff.raise .invalidUri
  | some uri => if uri.path.isNone then Eff.raise .noMethodError else pure ()

/-- The notification, where single sign-out is enabled. -/
def notifyService (c : Context) (st : SPTicket) : Handler Unit :=
  if c.config.enableSingleSignOut then sendLogoutNotification c st else pure ()

/-- The service tickets are destroyed, and their services told. -/
def destroyServiceTickets (c : Context) : List SPTicket → Handler Unit
  | [] => pure ()
  | st :: rest => do
    notifyService c st
    Eff.modify fun w =>
      { w with serviceTickets := w.serviceTickets.keep fun row => row.id != st.id }
    destroyServiceTickets c rest

/-- The proxy-granting tickets whose service ticket is one of this username are destroyed. -/
def destroyProxyGrantingTickets (username : String) : Handler Unit :=
  Eff.modify fun w =>
    { w with
      proxyGrantingTickets := w.proxyGrantingTickets.keep fun pgt =>
        !(serviceTicketOf w pgt).any fun st => st.username == username }

/-- The transaction of `/logout`. -/
def endSession (c : Context) (tgt : TicketGrantingTicket) : Handler Unit := do
  let w ← Eff.get
  destroyServiceTickets c (grantedServiceTickets w tgt)
  destroyProxyGrantingTickets tgt.username
  destroyGrantingTicket c tgt

/-- The session of the cookie is ended, if there is one. -/
def endCookieSession (c : Context) : Handler Unit := do
  let w ← Eff.get
  match findGrantingTicket w c.request.tgt with
  | none => pure ()
  | some tgt => Eff.transaction (endSession c tgt)

/-- `GET /logout`. -/
def logout (c : Context) : Handler Response := do
  endCookieSession c
  let lt ← generateLoginTicket c
  match c.request.isGateway, (c.request.service.or c.request.destination).map cleanServiceUrl with
  | true, some service => pure (.redirect service)
  | _, _ => pure (.page 200 (some (.successLoggedOut c.request.url.isSome)) lt)

/-! ### Validation -/

/-- `GET /validate`. -/
def validate (c : Context) : Handler Response :=
  if c.request.ipAllowed then do
    let (st, error) ← validateServiceTicket c c.request.cleanService c.request.ticket false
    match st, error with
    | some st, none => pure (.success st.username none none [])
    | _, some error => pure (refuse error)
    | none, none => Eff.raise .noMethodError
  else pure notAllowed

/-- The proxy-granting ticket of a validated ticket, if one is asked for. -/
def grantProxy (c : Context) (st : SPTicket) : Handler (Option String) :=
  match c.request.pgtUrl with
  | none => pure none
  | some pgtUrl => do
    let pgt ← generateProxyGrantingTicket c pgtUrl st
    pure (pgt.map ProxyGrantingTicket.iou)

/-- `granted_by_tgt.extra_attributes`; only a `ServiceTicket` has this association. -/
def extraAttributesOf (st : SPTicket) : Handler ExtraAttributes := do
  let w ← Eff.get
  match st.type, grantedByTgt w st with
  | .serviceTicket, some tgt => pure tgt.extraAttributes
  | _, _ => Eff.raise .noMethodError

/-- `GET /serviceValidate`. -/
def serviceValidate (c : Context) : Handler Response :=
  if c.request.ipAllowed then do
    let (st, error) ← validateServiceTicket c c.request.cleanService c.request.ticket false
    match st, error with
    | some st, none => do
      let pgtiou ← grantProxy c st
      let extraAttributes ← extraAttributesOf st
      pure (.success st.username (some extraAttributes) pgtiou [])
    | _, some error => pure (refuse error)
    | none, none => Eff.raise .noMethodError
  else pure notAllowed

/-- The services a proxy ticket has come through. -/
def proxiesOf (pt : SPTicket) : Handler (List String) := do
  let w ← Eff.get
  if pt.type == .proxyTicket then
    match (grantedByPgt w pt).bind (serviceTicketOf w) with
    | some st => pure [st.service]
    | none => Eff.raise .noMethodError
  else pure []

/-- `GET /proxyValidate`. -/
def proxyValidate (c : Context) : Handler Response :=
  if c.request.ipAllowed then do
    let (t, error) ← validateProxyTicket c c.request.cleanService c.request.ticket
    match t, error with
    | some t, none => do
      let proxies ← proxiesOf t
      let pgtiou ← grantProxy c t
      let extraAttributes ← extraAttributesOf t
      pure (.success t.username (some extraAttributes) pgtiou proxies)
    | _, some error => pure (refuse error)
    | none, none => Eff.raise .noMethodError
  else pure notAllowed

/-- `GET /proxy`. -/
def proxy (c : Context) : Handler Response := do
  let validated ← validateProxyGrantingTicket c.request.pgt
  match validated with
  | .error error => pure (refuse error)
  | .ok (pgt, st) => do
    let pt ← generateProxyTicket c c.request.targetService pgt st
    pure (.proxySuccess pt.ticket)

/-! ### Runs -/

/-- The handling of a request. -/
def respond (c : Context) : Handler Response :=
  match c.request.endpoint with
  | .getLogin => getLogin c
  | .postLogin => postLogin c
  | .postLoginTicket => postLoginTicket c
  | .validate => validate c
  | .serviceValidate => serviceValidate c
  | .proxyValidate => proxyValidate c
  | .proxy => proxy c
  | .logout => logout c

theorem respond_getLogin {c : Context} (h : c.request.endpoint = .getLogin) :
    respond c = getLogin c := by rw [respond, h]

theorem respond_postLogin {c : Context} (h : c.request.endpoint = .postLogin) :
    respond c = postLogin c := by rw [respond, h]

theorem respond_proxy {c : Context} (h : c.request.endpoint = .proxy) :
    respond c = proxy c := by rw [respond, h]

theorem respond_logout {c : Context} (h : c.request.endpoint = .logout) :
    respond c = logout c := by rw [respond, h]

/-- The state after a request. -/
def handle (config : Config) (w : World) (r : Request) : World :=
  (Eff.run (respond ⟨config, w.requests, r⟩) { w with requests := w.requests + 1 }).2

/-- What a request is answered with, or the exception it ends with. -/
def answer (config : Config) (w : World) (r : Request) : Except Raised Response :=
  (Eff.run (respond ⟨config, w.requests, r⟩) { w with requests := w.requests + 1 }).1

/-- The state after a run of requests from empty tables. -/
def run (config : Config) (rs : List Request) : World := rs.foldl (handle config) World.empty

end BkPlatform.Cas
