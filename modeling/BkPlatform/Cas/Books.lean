import BkPlatform.Lib.OneTime
import BkPlatform.Cas.ProxyTickets

/-!
# The books of the tickets

A validator consumes the row it has found, whatever its test says: a ticket that
is presented for the wrong service, or too late, is used up as well.  Nothing else
consumes a row.  So the column `consumed` tells the past of a ticket: it is set
exactly if a request has presented the ticket.

That two tickets never have one name is what the random strings are for.

## Main definitions

* `serviceFound`, `loginFound` — the row a request presents to a validator.
* `Presented`, `PresentedLogin` — the tickets the requests of a run have presented.
* `Books` — the two tables agree with the tickets presented.

## Main results

* `books_respond` — every route burns the tickets it presents, and no others.
* `books_handle`, `books_run` — **every run keeps the books.**
-/

namespace BkPlatform.Cas

open Eff RubyString OneTime

/-! ### Presenting tickets -/

/-- The service ticket that a request presents to `validate_service_ticket`: the row it
finds.  The address has to be allowed, and there has to be a service. -/
def serviceFound (w : World) (r : Request) : Option SPTicket :=
  match r.endpoint with
  | .validate | .serviceValidate | .proxyValidate =>
    if r.ipAllowed then ticketFound w r.cleanService r.ticket else none
  | _ => none

/-- The login ticket that a request presents to `validate_login_ticket`. -/
def loginFound (w : World) (r : Request) : Option LoginTicket :=
  match r.endpoint with
  | .postLogin => r.lt.bind (findLoginTicket w)
  | _ => none

/-- The names of the rows that the requests `rs` have presented. -/
def presentedBy {ρ : Type} (found : World → Request → Option ρ) (name : ρ → String)
    (config : Config) (rs : List Request) : Set String :=
  {ticket | ∃ before r after, rs = before ++ r :: after ∧
    ∃ row, found (run config before) r = some row ∧ name row = ticket}

/-- The service tickets that the requests `rs` have presented, by their names. -/
def Presented : Config → List Request → Set String := presentedBy serviceFound SPTicket.ticket

/-- The login tickets that the requests `rs` have presented, by their names. -/
def PresentedLogin : Config → List Request → Set String :=
  presentedBy loginFound LoginTicket.ticket

/-- The names `presented`, and that of the row found. -/
def burnt {ρ : Type} (name : ρ → String) (presented : Set String) (found : Option ρ) :
    Set String :=
  {ticket | ticket ∈ presented ∨ ∃ row, found = some row ∧ name row = ticket}

section Presented

variable {ρ : Type} {found : World → Request → Option ρ} {name : ρ → String} {config : Config}
  {presented : Set String}

@[simp] theorem burnt_none : burnt name presented none = presented := by
  ext ticket
  constructor
  · rintro (h | ⟨row, hrow, -⟩)
    · exact h
    · cases hrow
  · exact Or.inl

theorem mem_burnt_some {row : ρ} {ticket : String} :
    ticket ∈ burnt name presented (some row) ↔ ticket ∈ presented ∨ ticket = name row := by
  refine or_congr_right ⟨?_, fun h => ⟨row, rfl, h.symm⟩⟩
  rintro ⟨row', hrow, rfl⟩
  rw [Option.some.inj hrow]

theorem presentedBy_nil : presentedBy found name config [] = ∅ := by
  ext ticket
  refine iff_of_false ?_ (Set.notMem_empty _)
  rintro ⟨before, r, after, hsplit, -⟩
  cases before <;> cases hsplit

/-- A request presents what it finds. -/
theorem presentedBy_snoc (rs : List Request) (r : Request) :
    presentedBy found name config (rs ++ [r]) =
      burnt name (presentedBy found name config rs) (found (run config rs) r) := by
  ext ticket
  constructor
  · rintro ⟨before, q, after, hsplit, hfound⟩
    rcases List.eq_nil_or_concat after with rfl | ⟨after, last, rfl⟩
    · obtain ⟨rfl, hlast⟩ := List.append_inj' hsplit rfl
      obtain rfl := List.head_eq_of_cons_eq hlast
      exact Or.inr hfound
    · rw [List.concat_eq_append, ← List.cons_append, ← List.append_assoc] at hsplit
      exact Or.inl ⟨before, q, after, (List.append_inj' hsplit rfl).1, hfound⟩
  · rintro (⟨before, q, after, rfl, hfound⟩ | hfound)
    · exact ⟨before, q, after ++ [r], by simp, hfound⟩
    · exact ⟨rs, r, [], rfl, hfound⟩

end Presented

/-! ### The books -/

/-- Service tickets are labelled by their names. -/
def serviceKind (config : Config) (hrandom : Function.Injective config.random) :
    Kind SPTicket String where
  label := SPTicket.ticket
  used := isConsumed
  name := fun k => "ST-" ++ config.random k
  injective := fun _ _ h => hrandom (String.append_right_inj "ST-" |>.mp h)

/-- And so are login tickets. -/
def loginKind (config : Config) (hrandom : Function.Injective config.random) :
    Kind LoginTicket String where
  label := LoginTicket.ticket
  used := isConsumed
  name := fun k => "LT-" ++ config.random k
  injective := fun _ _ h => hrandom (String.append_right_inj "LT-" |>.mp h)

/-- The rows `ServiceTicket` finds. -/
def World.services (w : World) : Set SPTicket :=
  {st | st ∈ w.serviceTickets.rows ∧ st.type = .serviceTicket}

/-- The rows of `LoginTicket`. -/
def World.logins (w : World) : Set LoginTicket := {lt | lt ∈ w.loginTickets.rows}

/-- Of the tickets in the tables exactly those are consumed whose names have been presented. -/
structure Books (config : Config) (hrandom : Function.Injective config.random)
    (services logins : Set String) (w : World) : Prop where
  service : Ledger (serviceKind config hrandom) w.drawn services w.services
  login : Ledger (loginKind config hrandom) w.drawn logins w.logins

section Books

variable {config : Config} {hrandom : Function.Injective config.random} {P L : Set String}
  {w w' : World}

theorem books_empty : Books config hrandom ∅ ∅ World.empty where
  service := Ledger.empty.mono (Nat.le_refl _) fun _ h => absurd h.1 List.not_mem_nil
  login := Ledger.empty.mono (Nat.le_refl _) fun _ h => absurd h List.not_mem_nil

/-- Strings are drawn, and tickets destroyed. -/
theorem Books.mono (h : Books config hrandom P L w) (hdrawn : w.drawn ≤ w'.drawn)
    (hservices : w'.services ⊆ w.services) (hlogins : w'.logins ⊆ w.logins) :
    Books config hrandom P L w' :=
  ⟨h.service.mono hdrawn hservices, h.login.mono hdrawn hlogins⟩

/-- Whatever happens to the rest of the world. -/
theorem Books.other (h : Books config hrandom P L w) (hdrawn : w.drawn ≤ w'.drawn)
    (hservices : w'.serviceTickets = w.serviceTickets)
    (hlogins : w'.loginTickets = w.loginTickets) : Books config hrandom P L w' :=
  h.mono hdrawn (fun _ hst => by rwa [World.services, hservices] at hst)
    fun _ hlt => by rwa [World.logins, hlogins] at hlt

end Books

/-! ### What does not present a ticket -/

/-- The row `generate_login_ticket` saves. -/
def Context.loginTicket (c : Context) (ticket : String) (id : ℕ) : LoginTicket where
  id := id
  ticket := ticket
  createdOn := c.now
  consumed := none
  clientHostname := c.request.clientHostname

section Keeps

variable {c : Context} {hrandom : Function.Injective c.config.random} {P L : Set String}

theorem books_randomString : Keeps (Books c.config hrandom P L) (randomString c) :=
  fun _ hw => hw.other (Nat.le_succ _) rfl rfl

/-- A login ticket is issued. -/
theorem books_generateLoginTicket :
    Keeps (Books c.config hrandom P L) (generateLoginTicket c) := by
  intro w hw
  have hlabel : (loginKind c.config hrandom).label
      (c.loginTicket ("LT-" ++ c.config.random w.drawn) w.loginTickets.nextId) =
        (loginKind c.config hrandom).name w.drawn := rfl
  refine ⟨hw.service.mono (Nat.le_succ _) subset_rfl, hw.login.mint hlabel rfl fun lt hlt => ?_⟩
  exact (Table.mem_insert.mp hlt).symm

/-- A service ticket is issued. -/
theorem books_generateServiceTicket {service : String} {username : Option String}
    {tgt : TicketGrantingTicket} :
    Keeps (Books c.config hrandom P L) (generateServiceTicket c service username tgt) := by
  intro w hw
  cases username with
  | none => exact books_randomString w hw
  | some username =>
    let row : SPTicket :=
      { c.serviceTicket ("ST-" ++ c.config.random w.drawn) service tgt w.serviceTickets.nextId with
        username := username }
    have hlabel : (serviceKind c.config hrandom).label row =
        (serviceKind c.config hrandom).name w.drawn := rfl
    refine ⟨hw.service.mint hlabel rfl fun st hst => ?_, hw.login.mono (Nat.le_succ _) subset_rfl⟩
    rcases Table.mem_insert.mp hst.1 with hold | hnew
    · exact Or.inr ⟨hold, hst.2⟩
    · exact Or.inl hnew

/-- A proxy ticket is none that `ServiceTicket` finds. -/
theorem books_generateProxyTicket {targetService : Option String} {pgt : ProxyGrantingTicket}
    {st : SPTicket} :
    Keeps (Books c.config hrandom P L) (generateProxyTicket c targetService pgt st) := by
  intro w hw
  cases targetService with
  | none => exact books_randomString w hw
  | some targetService =>
    refine hw.mono (Nat.le_succ _) (fun st' hst' => ?_) subset_rfl
    rcases Table.mem_insert.mp hst'.1 with hold | rfl
    · exact ⟨hold, hst'.2⟩
    · cases hst'.2

theorem books_generateTicketGrantingTicket {username : Option String}
    {extraAttributes : ExtraAttributes} :
    Keeps (Books c.config hrandom P L)
      (generateTicketGrantingTicket c username extraAttributes) := by
  intro w hw
  cases username with
  | none => exact books_randomString w hw
  | some username => exact hw.other (Nat.le_succ _) rfl rfl

theorem books_generateProxyGrantingTicket {pgtUrl : String} {st : SPTicket} :
    Keeps (Books c.config hrandom P L) (generateProxyGrantingTicket c pgtUrl st) := by
  apply Keeps.bind books_randomString
  intro ticket
  apply Keeps.bind books_randomString
  intro iou
  cases c.request.callback pgtUrl with
  | raised => exact Keeps.raise
  | bad => exact Keeps.pure
  | good => exact fun w hw => hw.other (Nat.le_refl _) rfl rfl

theorem books_destroyGrantingTicket {tgt : TicketGrantingTicket} :
    Keeps (Books c.config hrandom P L) (destroyGrantingTicket c tgt) :=
  Triple.modify fun _ hw => hw.other (Nat.le_refl _) rfl rfl

theorem books_validateTicketGrantingTicket {ticket : Option String} :
    Keeps (Books c.config hrandom P L) (validateTicketGrantingTicket c ticket) := by
  apply Triple.bind Triple.read
  intro w
  split
  · exact Keeps.pure
  · exact Keeps.pure
  · exact Keeps.ite (fun _ => Keeps.bind books_destroyGrantingTicket fun _ => Keeps.pure)
      fun _ => Keeps.pure

/-! ### The routes, after the validators -/

theorem books_loginForm {message : Option Message} :
    Keeps (Books c.config hrandom P L) (loginForm c message) :=
  Keeps.bind books_generateLoginTicket fun _ => Keeps.pure

theorem books_cookieTicket : Keeps (Books c.config hrandom P L) (cookieTicket c) := by
  unfold cookieTicket
  split
  · exact Keeps.pure
  · exact Keeps.bind books_validateTicketGrantingTicket fun _ => Keeps.pure

theorem books_getLogin : Keeps (Books c.config hrandom P L) (getLogin c) := by
  apply Keeps.bind books_cookieTicket
  intro tgt
  split
  · apply Keeps.ite (fun _ => books_loginForm)
    intro _
    exact Keeps.bind books_generateServiceTicket fun st => keeps_redirectWithTicket books_loginForm
  · exact Keeps.ite (fun _ => Keeps.pure) fun _ => books_loginForm
  · exact Keeps.ite (fun _ => books_loginForm) fun _ => books_loginForm

theorem books_postLoginTicket : Keeps (Books c.config hrandom P L) (postLoginTicket c) :=
  Keeps.bind books_generateLoginTicket fun _ => Keeps.pure

theorem books_authenticate {username password service : Option String}
    (auth : List Authenticator) :
    Keeps (Books c.config hrandom P L) (authenticate c username password service auth) := by
  induction auth with
  | nil => exact Keeps.pure
  | cons a rest ih =>
    rw [authenticate]
    split
    · refine Keeps.bind (Triple.modify fun _ hw => ?_) fun _ => Keeps.pure
      exact hw.other (Nat.le_refl _) rfl rfl
    · exact ih
    · exact Keeps.raise

theorem books_login {lt : String} : Keeps (Books c.config hrandom P L) (login c lt) := by
  apply Keeps.bind (books_authenticate c.request.auth)
  intro credentials
  cases credentials with
  | none => exact Keeps.pure
  | some extraAttributes =>
    apply Keeps.bind books_generateTicketGrantingTicket
    intro tgt
    split
    · exact Keeps.pure
    · apply Keeps.ite (fun _ => Keeps.pure)
      intro _
      exact Keeps.bind books_generateServiceTicket fun st => keeps_redirectWithTicket Keeps.pure

theorem books_authenticatorFailed {e : Raised} :
    Keeps (Books c.config hrandom P L) (authenticatorFailed c e) := by
  unfold authenticatorFailed
  split
  · exact Keeps.bind books_generateLoginTicket fun _ => Keeps.pure
  · exact Keeps.raise

theorem books_destroyServiceTickets (sts : List SPTicket) :
    Keeps (Books c.config hrandom P L) (destroyServiceTickets c sts) := by
  induction sts with
  | nil => exact Keeps.pure
  | cons st rest ih =>
    apply Keeps.bind keeps_notifyService
    intro _
    refine Keeps.bind (Triple.modify fun w hw => ?_) fun _ => ih
    refine hw.mono (Nat.le_refl _) (fun row hrow => ?_) subset_rfl
    exact ⟨(Table.mem_keep.mp hrow.1).1, hrow.2⟩

theorem books_endSession {tgt : TicketGrantingTicket} :
    Keeps (Books c.config hrandom P L) (endSession c tgt) := by
  apply Triple.bind Triple.read
  intro w
  apply Keeps.bind (books_destroyServiceTickets _)
  intro _
  refine Keeps.bind (Triple.modify fun _ hw => ?_) fun _ => books_destroyGrantingTicket
  exact hw.other (Nat.le_refl _) rfl rfl

theorem books_logout : Keeps (Books c.config hrandom P L) (logout c) := by
  refine Keeps.bind (Triple.bind Triple.read fun w => ?_) fun _ => ?_
  · cases findGrantingTicket w c.request.tgt with
    | none => exact Keeps.pure
    | some tgt => exact Triple.transaction books_endSession fun _ hw => hw
  · apply Keeps.bind books_generateLoginTicket
    intro lt
    split <;> exact Keeps.pure

theorem books_grantProxy {st : SPTicket} :
    Keeps (Books c.config hrandom P L) (grantProxy c st) := by
  unfold grantProxy
  split
  · exact Keeps.pure
  · exact Keeps.bind books_generateProxyGrantingTicket fun _ => Keeps.pure

theorem keeps_validateProxyGrantingTicket {I : World → Prop} {ticket : Option String} :
    Keeps I (validateProxyGrantingTicket ticket) := by
  apply Triple.bind Triple.read
  intro w
  split
  · exact Keeps.pure
  · split
    · exact Keeps.pure
    · split
      · exact Keeps.pure
      · exact Keeps.pure

theorem books_proxy : Keeps (Books c.config hrandom P L) (proxy c) := by
  apply Keeps.bind keeps_validateProxyGrantingTicket
  intro validated
  cases validated with
  | error e => exact Keeps.pure
  | ok found => exact Keeps.bind books_generateProxyTicket fun _ => Keeps.pure

/-! ### Presenting a ticket burns it -/

/-- Consuming by the key makes that row consumed, and no other. -/
theorem isConsumed_consume_key {ρ : Type} [Consumable ρ] {key : ρ → ℕ} {t : Table ρ key}
    {row found : ρ} (hrow : row ∈ t.rows) (hfound : found ∈ t.rows) (now : ℤ) :
    isConsumed (if key row = key found then Consumable.consume now row else row) = true ↔
      isConsumed row = true ∨ row = found := by
  by_cases hkey : key row = key found
  · rw [if_pos hkey, t.eq_of_key hrow hfound hkey]
    exact iff_of_true (isConsumed_consume now found) (Or.inr rfl)
  · rw [if_neg hkey, or_iff_left]
    exact fun h => hkey (h ▸ rfl)

/-- A service ticket that is found is consumed. -/
theorem books_consumeServiceTicket {st : SPTicket} :
    Triple (fun w => Books c.config hrandom P L w ∧ st ∈ w.services) (consumeServiceTicket c st)
      (fun _ => Books c.config hrandom (burnt SPTicket.ticket P (some st)) L)
      (Books c.config hrandom (burnt SPTicket.ticket P (some st)) L) := by
  rintro w ⟨hw, hst⟩
  refine ⟨hw.service.present hst (fun row _ => ?_)
    (fun row hrow => isConsumed_consume_key hrow.1 hst.1 c.now) (fun row hrow => ?_)
    fun _ => mem_burnt_some, hw.login⟩
  · show SPTicket.ticket (if row.id = st.id then _ else row) = row.ticket
    split <;> rfl
  · obtain ⟨old, hold, heq⟩ := List.mem_map.mp hrow.1
    refine ⟨old, ⟨hold, ?_⟩, heq⟩
    have htype := hrow.2
    rw [← heq] at htype
    split at htype <;> exact htype

/-- And so is a login ticket. -/
theorem books_consumeLoginTicket {lt : LoginTicket} :
    Triple (fun w => Books c.config hrandom P L w ∧ lt ∈ w.logins) (consumeLoginTicket c lt)
      (fun _ => Books c.config hrandom P (burnt LoginTicket.ticket L (some lt)))
      (Books c.config hrandom P (burnt LoginTicket.ticket L (some lt))) := by
  rintro w ⟨hw, hlt⟩
  refine ⟨hw.service, hw.login.present hlt (fun row _ => ?_)
    (fun row hrow => isConsumed_consume_key hrow hlt c.now) (fun row hrow => ?_)
    fun _ => mem_burnt_some⟩
  · show LoginTicket.ticket (if row.id = lt.id then _ else row) = row.ticket
    split <;> rfl
  · exact List.mem_map.mp hrow

theorem books_logValidated {service : Option String} {st : SPTicket} {error : Option Error} :
    Keeps (Books c.config hrandom P L) (logValidated c service st error) := by
  unfold logValidated
  split
  · exact Triple.modify fun _ hw => hw.other (Nat.le_refl _) rfl rfl
  · exact Keeps.pure

/-- From the books the computation leads to those with the service ticket `found` as well. -/
def Burns {α : Type} (c : Context) (hrandom : Function.Injective c.config.random)
    (P L : Set String) (found : World → Option SPTicket) (x : Handler α) : Prop :=
  ∀ st, Triple (fun w => Books c.config hrandom P L w ∧ found w = st) x
    (fun _ => Books c.config hrandom (burnt SPTicket.ticket P st) L)
    (Books c.config hrandom (burnt SPTicket.ticket P st) L)

/-- What follows presents nothing more. -/
theorem Burns.bind {α β : Type} {found : World → Option SPTicket} {x : Handler α}
    {f : α → Handler β} (hx : Burns c hrandom P L found x)
    (hf : ∀ a P, Keeps (Books c.config hrandom P L) (f a)) : Burns c hrandom P L found (x >>= f) :=
  fun st => Triple.bind (hx st) fun a => hf a _

/-- **`validate_service_ticket` burns what it finds, whatever it says.** -/
theorem burns_validateServiceTicket {service ticket : Option String} {allowProxyTickets : Bool} :
    Burns c hrandom P L (fun w => ticketFound w service ticket)
      (validateServiceTicket c service ticket allowProxyTickets) := by
  intro found
  apply Triple.bind Triple.get
  intro w
  cases hfound : ticketFound w service ticket with
  | none =>
    refine Triple.pure ?_
    rintro w' ⟨⟨hw, heq⟩, rfl⟩
    obtain rfl : none = found := hfound.symm.trans heq
    rw [burnt_none]
    exact hw
  | some st =>
    obtain ⟨-, -, -, -, hst, htype, -⟩ := ticketFound_eq_some hfound
    rintro w' ⟨⟨hw, heq⟩, rfl⟩
    obtain rfl : some st = found := hfound.symm.trans heq
    exact Triple.bind books_consumeServiceTicket
      (fun _ => Keeps.bind books_logValidated fun _ => Keeps.pure) w ⟨hw, hst, htype⟩

/-- A row the finder finds is one with that name. -/
theorem findLoginTicket_eq_some {w : World} {ticket : String} {lt : LoginTicket}
    (h : findLoginTicket w ticket = some lt) : lt ∈ w.loginTickets.rows ∧ lt.ticket = ticket := by
  have hnamed : lt.isNamed ticket = true := List.find?_some h
  exact ⟨List.mem_of_find?_eq_some h, beq_iff_eq.mp hnamed⟩

/-- **`validate_login_ticket` burns what it finds, whatever it says.** -/
theorem books_validateLoginTicket {ticket : Option String} {found : Option LoginTicket} :
    Triple (fun w => Books c.config hrandom P L w ∧ ticket.bind (findLoginTicket w) = found)
      (validateLoginTicket c ticket)
      (fun _ => Books c.config hrandom P (burnt LoginTicket.ticket L found))
      (Books c.config hrandom P (burnt LoginTicket.ticket L found)) := by
  apply Triple.bind Triple.get
  intro w
  refine Triple.bind (M := fun _ => Books c.config hrandom P (burnt LoginTicket.ticket L found)) ?_
    fun _ => Keeps.pure
  rintro w' ⟨⟨hw, rfl⟩, rfl⟩
  cases hfound : ticket.bind (findLoginTicket w) with
  | none =>
    rw [burnt_none]
    exact hw
  | some lt =>
    obtain ⟨name, -, hname⟩ := Option.bind_eq_some_iff.mp hfound
    exact books_consumeLoginTicket w ⟨hw, (findLoginTicket_eq_some hname).1⟩

theorem books_postLogin {found : Option LoginTicket} :
    Triple (fun w => Books c.config hrandom P L w ∧ c.request.lt.bind (findLoginTicket w) = found)
      (postLogin c) (fun _ => Books c.config hrandom P (burnt LoginTicket.ticket L found))
      (Books c.config hrandom P (burnt LoginTicket.ticket L found)) := by
  apply Triple.bind books_validateLoginTicket
  intro error
  apply Keeps.bind books_generateLoginTicket
  intro lt
  cases error with
  | some message => exact Keeps.pure
  | none => exact Triple.rescue books_login fun _ => books_authenticatorFailed

/-- A route that validates a service ticket if the address is allowed, and otherwise does
nothing. -/
theorem Burns.ifAllowed {x y : Handler Response}
    (hx : Burns c hrandom P L
      (fun w => ticketFound w c.request.cleanService c.request.ticket) x)
    (hy : Keeps (Books c.config hrandom P L) y) :
    Burns c hrandom P L (fun w => if c.request.ipAllowed then
        ticketFound w c.request.cleanService c.request.ticket else none)
      (if c.request.ipAllowed then x else y) := by
  rintro found w ⟨hw, hfound⟩
  by_cases hallowed : c.request.ipAllowed = true
  · rw [if_pos hallowed]
    exact hx found w ⟨hw, (if_pos hallowed).symm.trans hfound⟩
  · obtain rfl : none = found := (if_neg hallowed).symm.trans hfound
    rw [if_neg hallowed, burnt_none]
    exact hy w hw

theorem burns_validate : Burns c hrandom P L (fun w => if c.request.ipAllowed then
    ticketFound w c.request.cleanService c.request.ticket else none) (validate c) := by
  refine Burns.ifAllowed (burns_validateServiceTicket.bind ?_) Keeps.pure
  rintro ⟨st, error⟩ P
  cases st <;> cases error
  · exact Keeps.raise
  · exact Keeps.pure
  · exact Keeps.pure
  · exact Keeps.pure

theorem burns_serviceValidate : Burns c hrandom P L (fun w => if c.request.ipAllowed then
    ticketFound w c.request.cleanService c.request.ticket else none) (serviceValidate c) := by
  refine Burns.ifAllowed (burns_validateServiceTicket.bind ?_) Keeps.pure
  rintro ⟨st, error⟩ P
  cases st <;> cases error
  · exact Keeps.raise
  · exact Keeps.pure
  · refine Keeps.bind books_grantProxy fun _ => ?_
    exact Keeps.bind keeps_extraAttributesOf fun _ => Keeps.pure
  · exact Keeps.pure

theorem burns_validateProxyTicket {service ticket : Option String} :
    Burns c hrandom P L (fun w => ticketFound w service ticket)
      (validateProxyTicket c service ticket) := by
  apply burns_validateServiceTicket.bind
  rintro ⟨pt, error⟩ P
  cases pt <;> cases error
  · exact Keeps.pure
  · exact Keeps.pure
  · exact Triple.bind Triple.read fun w => Keeps.bind books_logValidated fun _ => Keeps.pure
  · exact Keeps.pure

theorem burns_proxyValidate : Burns c hrandom P L (fun w => if c.request.ipAllowed then
    ticketFound w c.request.cleanService c.request.ticket else none) (proxyValidate c) := by
  refine Burns.ifAllowed (burns_validateProxyTicket.bind ?_) Keeps.pure
  rintro ⟨t, error⟩ P
  cases t <;> cases error
  · exact Keeps.raise
  · exact Keeps.pure
  · refine Triple.bind (triple_proxiesOf fun _ hw => hw) fun _ => ?_
    refine Keeps.bind books_grantProxy fun _ => ?_
    exact Keeps.bind keeps_extraAttributesOf fun _ => Keeps.pure
  · exact Keeps.pure

/-- **Every route burns the tickets it presents, and no others.** -/
theorem books_respond {st : Option SPTicket} {lt : Option LoginTicket} :
    Triple (fun w => Books c.config hrandom P L w ∧ serviceFound w c.request = st ∧
        loginFound w c.request = lt) (respond c)
      (fun _ => Books c.config hrandom (burnt SPTicket.ticket P st) (burnt LoginTicket.ticket L lt))
      (Books c.config hrandom (burnt SPTicket.ticket P st) (burnt LoginTicket.ticket L lt)) := by
  rintro w ⟨hw, rfl, rfl⟩
  unfold respond serviceFound loginFound
  cases hendpoint : c.request.endpoint with
  | getLogin => simpa only [burnt_none] using books_getLogin w hw
  | postLogin => simpa only [burnt_none] using books_postLogin w ⟨hw, rfl⟩
  | postLoginTicket => simpa only [burnt_none] using books_postLoginTicket w hw
  | validate => simpa only [burnt_none] using burns_validate _ w ⟨hw, rfl⟩
  | serviceValidate => simpa only [burnt_none] using burns_serviceValidate _ w ⟨hw, rfl⟩
  | proxyValidate => simpa only [burnt_none] using burns_proxyValidate _ w ⟨hw, rfl⟩
  | proxy => simpa only [burnt_none] using books_proxy w hw
  | logout => simpa only [burnt_none] using books_logout w hw

end Keeps

/-! ### Runs -/

section Runs

variable {config : Config} {hrandom : Function.Injective config.random} {P L : Set String}
  {w : World}

/-- **After a request exactly the tickets it has presented are burnt as well.** -/
theorem books_handle (h : Books config hrandom P L w) (r : Request) :
    Books config hrandom (burnt SPTicket.ticket P (serviceFound w r))
      (burnt LoginTicket.ticket L (loginFound w r)) (handle config w r) := by
  have hcounted : Books config hrandom P L { w with requests := w.requests + 1 } :=
    h.other (Nat.le_refl _) rfl rfl
  have hrespond := @books_respond (contextOf config w r) hrandom P L (serviceFound w r)
    (loginFound w r)
  exact hrespond.state ⟨hcounted, rfl, rfl⟩

/-- **The books of a run.** -/
theorem books_run (config : Config) (hrandom : Function.Injective config.random)
    (rs : List Request) :
    Books config hrandom (Presented config rs) (PresentedLogin config rs) (run config rs) := by
  induction rs using List.reverseRecOn with
  | nil =>
    rw [Presented, PresentedLogin, presentedBy_nil, presentedBy_nil]
    exact books_empty
  | append_singleton rs r ih =>
    rw [Presented, PresentedLogin, presentedBy_snoc, presentedBy_snoc, run_append]
    exact books_handle ih r

/-- What is burnt stays burnt. -/
theorem books_foldl (later : List Request) (h : Books config hrandom P L w) :
    ∃ P' L', P ⊆ P' ∧ L ⊆ L' ∧ Books config hrandom P' L' (later.foldl (handle config) w) := by
  induction later generalizing P L w with
  | nil => exact ⟨P, L, subset_rfl, subset_rfl, h⟩
  | cons r later ih =>
    obtain ⟨P', L', hP, hL, hbooks⟩ := ih (books_handle h r)
    exact ⟨P', L', fun _ hp => hP (Or.inl hp), fun _ hl => hL (Or.inl hl), hbooks⟩

end Runs

end BkPlatform.Cas
