import BkPlatform.Lib.Effect
import BkPlatform.Lib.Table
import BkPlatform.Cas.Service
import Mathlib.Data.Int.Notation

/-!
# Tickets, requests and the history of the server

The four ticket tables with the associations between them, what a request
brings along, and the world a request is handled in.  The world also keeps a
history, which the server does not read: who was authenticated, which tickets
were granted, issued, destroyed and accepted, each with the request it happened
in.

Times are in seconds; one request happens at one time.

## Main definitions

* `LoginTicket`, `SPTicket`, `TicketGrantingTicket`, `ProxyGrantingTicket` — rows.
* `Consumable` — a ticket that is used up when it is presented.
* `Config`, `Request` — what a request is handled with.
* `Event`, `Entry`, `World` — the history and the state.
* `findServiceTicket`, `serviceTicketOf`, … — finders and associations.
-/

namespace BkPlatform.Cas

/-! ### Rows -/

/-- A row of `casserver_lt`. -/
structure LoginTicket where
  id : ℕ
  ticket : String
  createdOn : ℤ
  consumed : Option ℤ
  clientHostname : String
  deriving DecidableEq, Repr

/-- The `type` of a row of `casserver_st`. -/
inductive TicketType
  | serviceTicket
  | proxyTicket
  deriving DecidableEq, Repr

/-- A row of `casserver_st`. -/
structure SPTicket where
  id : ℕ
  ticket : String
  service : String
  createdOn : ℤ
  consumed : Option ℤ
  clientHostname : String
  username : String
  type : TicketType
  grantedByPgtId : Option ℕ
  grantedByTgtId : Option ℕ
  deriving DecidableEq, Repr

/-- Attributes an authenticator reports. -/
abbrev ExtraAttributes := List (String × String)

/-- A row of `casserver_tgt`. -/
structure TicketGrantingTicket where
  id : ℕ
  ticket : String
  createdOn : ℤ
  clientHostname : String
  username : String
  extraAttributes : ExtraAttributes
  deriving DecidableEq, Repr

/-- A row of `casserver_pgt`. -/
structure ProxyGrantingTicket where
  id : ℕ
  ticket : String
  createdOn : ℤ
  clientHostname : String
  iou : String
  serviceTicketId : ℕ
  deriving DecidableEq, Repr

/-- A ticket that is used up when it is presented. -/
class Consumable (ρ : Type) where
  consumed : ρ → Option ℤ
  /-- `consume!`. -/
  consume : ℤ → ρ → ρ
  consumed_consume : ∀ now row, consumed (consume now row) = some now

/-- `consumed?`. -/
def isConsumed {ρ : Type} [Consumable ρ] (row : ρ) : Bool := (Consumable.consumed row).isSome

instance : Consumable LoginTicket where
  consumed := LoginTicket.consumed
  consume := fun now lt => { lt with consumed := some now }
  consumed_consume := fun _ _ => rfl

instance : Consumable SPTicket where
  consumed := SPTicket.consumed
  consume := fun now st => { st with consumed := some now }
  consumed_consume := fun _ _ => rfl

@[simp] theorem isConsumed_consume {ρ : Type} [Consumable ρ] (now : ℤ) (row : ρ) :
    isConsumed (Consumable.consume now row) = true := by
  rw [isConsumed, Consumable.consumed_consume, Option.isSome_some]

/-! ### Requests -/

/-- The settings the server reads, and what it uses of the libraries. -/
structure Config where
  maximumUnusedLoginTicketLifetime : ℤ
  maximumUnusedServiceTicketLifetime : ℤ
  maximumSessionLifetime : Option ℤ
  downcaseUsername : Bool
  enableSingleSignOut : Bool
  /-- `URI.parse`. -/
  uriParse : String → Option Uri
  /-- The values of `String.random`, one after the other. -/
  random : ℕ → String

/-- The settings before the configuration file is read: five minutes, and two days. -/
def Config.default (uriParse : String → Option Uri) (random : ℕ → String) : Config where
  maximumUnusedLoginTicketLifetime := 5 * 60
  maximumUnusedServiceTicketLifetime := 5 * 60
  maximumSessionLifetime := some (2 * 24 * 60 * 60)
  downcaseUsername := false
  enableSingleSignOut := false
  uriParse := uriParse
  random := random

/-- These settings, where every URI is plain and the random strings are numbers. -/
def plainConfig : Config := .default (fun _ => some ⟨some "/", none⟩) fun n => toString n

/-- What an authenticator makes of the credentials. -/
inductive AuthResult
  | accepted (extraAttributes : ExtraAttributes)
  | refused
  | raised (e : Raised)
  deriving DecidableEq, Repr

/-- An authenticator: username, password and service to the result. -/
abbrev Authenticator := Option String → Option String → Option String → AuthResult

/-- How the callback of a proxy answers. -/
inductive Callback
  | good
  | bad
  | raised
  deriving DecidableEq, Repr

/-- The routes of the server. -/
inductive Endpoint
  | getLogin
  | postLogin
  | postLoginTicket
  | validate
  | serviceValidate
  | proxyValidate
  | proxy
  | logout
  deriving DecidableEq, Repr

/-- A request, with what the world outside answers while it is handled. -/
structure Request where
  endpoint : Endpoint
  now : ℤ
  clientHostname : String := "127.0.0.1"
  /-- `ip_allowed?`. -/
  ipAllowed : Bool := true
  /-- The cookie `tgt`. -/
  tgt : Option String := none
  service : Option String := none
  destination : Option String := none
  url : Option String := none
  renew : Option String := none
  gateway : Option String := none
  redirectionLoopIntercepted : Option String := none
  username : Option String := none
  password : Option String := none
  lt : Option String := none
  ticket : Option String := none
  pgt : Option String := none
  pgtUrl : Option String := none
  targetService : Option String := none
  auth : List Authenticator := []
  callback : String → Callback := fun _ => .good

/-- What the history records. -/
inductive Event
  /-- An authenticator has returned true for this username. -/
  | authenticated (username : Option String)
  | granted (tgt : TicketGrantingTicket)
  | destroyed (tgt : TicketGrantingTicket)
  | issued (st : SPTicket)
  | proxyGranted (pgt : ProxyGrantingTicket)
  /-- The ticket was validated for this service without an error. -/
  | validated (service : String) (st : SPTicket)
  deriving DecidableEq, Repr

/-- An event and the request it happened in, with its number in the run. -/
structure Entry where
  number : ℕ
  request : Request
  event : Event

/-! ### The world -/

/-- The tables, how many random strings have been drawn and how many requests have been
handled, and the history. -/
structure World where
  loginTickets : Table LoginTicket LoginTicket.id
  serviceTickets : Table SPTicket SPTicket.id
  grantingTickets : Table TicketGrantingTicket TicketGrantingTicket.id
  proxyGrantingTickets : Table ProxyGrantingTicket ProxyGrantingTicket.id
  drawn : ℕ
  requests : ℕ
  history : List Entry

/-- Empty tables. -/
def World.empty : World where
  loginTickets := Table.empty
  serviceTickets := Table.empty
  grantingTickets := Table.empty
  proxyGrantingTickets := Table.empty
  drawn := 0
  requests := 0
  history := []

/-- What a request is handled in. -/
structure Context where
  config : Config
  number : ℕ
  request : Request

/-- The time of the request. -/
def Context.now (c : Context) : ℤ := c.request.now

/-- A part of the handling of a request. -/
abbrev Handler (α : Type) := Eff Raised World α

/-- The history with one more event of this request. -/
def Context.log (c : Context) (w : World) (e : Event) : List Entry :=
  w.history ++ [⟨c.number, c.request, e⟩]

/-! ### Finders and associations

A finder of `ServiceTicket` looks at the rows of that type only, and so does an
association to it.  `LoginTicket` and the granting tickets have tables of their own. -/

/-- The rows `ServiceTicket.find_by_ticket` chooses from. -/
def SPTicket.isNamed (ticket : String) (st : SPTicket) : Bool :=
  st.type == .serviceTicket && st.ticket == ticket

/-- `ServiceTicket.find_by_ticket`. -/
def findServiceTicket (w : World) (ticket : String) : Option SPTicket :=
  w.serviceTickets.rows.find? (SPTicket.isNamed ticket)

/-- The rows `LoginTicket.find_by_ticket` chooses from. -/
def LoginTicket.isNamed (ticket : String) (lt : LoginTicket) : Bool := lt.ticket == ticket

/-- `LoginTicket.find_by_ticket`. -/
def findLoginTicket (w : World) (ticket : String) : Option LoginTicket :=
  w.loginTickets.rows.find? (LoginTicket.isNamed ticket)

/-- `TicketGrantingTicket.find_by_ticket`; no row has a null ticket. -/
def findGrantingTicket (w : World) (ticket : Option String) : Option TicketGrantingTicket :=
  w.grantingTickets.rows.find? fun tgt => some tgt.ticket == ticket

/-- `ProxyGrantingTicket.find_by_ticket`. -/
def findProxyGrantingTicket (w : World) (ticket : String) : Option ProxyGrantingTicket :=
  w.proxyGrantingTickets.rows.find? fun pgt => pgt.ticket == ticket

/-- `ProxyGrantingTicket#service_ticket`. -/
def serviceTicketOf (w : World) (pgt : ProxyGrantingTicket) : Option SPTicket :=
  w.serviceTickets.rows.find? fun st => st.type == .serviceTicket && st.id == pgt.serviceTicketId

/-- `ProxyTicket#granted_by_pgt`. -/
def grantedByPgt (w : World) (pt : SPTicket) : Option ProxyGrantingTicket :=
  w.proxyGrantingTickets.rows.find? fun pgt => some pgt.id == pt.grantedByPgtId

/-- `ServiceTicket#granted_by_tgt`. -/
def grantedByTgt (w : World) (st : SPTicket) : Option TicketGrantingTicket :=
  w.grantingTickets.rows.find? fun tgt => some tgt.id == st.grantedByTgtId

/-- `TicketGrantingTicket#granted_service_tickets`. -/
def grantedServiceTickets (w : World) (tgt : TicketGrantingTicket) : List SPTicket :=
  w.serviceTickets.rows.filter fun st =>
    st.type == .serviceTicket && st.grantedByTgtId == some tgt.id

end BkPlatform.Cas
