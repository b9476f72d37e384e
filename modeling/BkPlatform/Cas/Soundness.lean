import BkPlatform.Lib.Log
import BkPlatform.Cas.Changes

/-!
# Authentication is sound

A ticket that validates goes back to a login.  What carries the argument through
a run is that every row can account for itself out of the history: a
ticket-granting ticket was granted in a `POST /login` that authenticated its
username, and a service or proxy ticket was issued from such a ticket, there, on
its cookie, or through a proxy-granting ticket.

Nothing here depends on the random strings being distinct: the history names
rows, and the cookie of a login names the row that was found.

## Main definitions

* `LoggedIn`, `IssuedFrom`, `Accounted` — where a ticket comes from.
* `ValidatedSound` — what is claimed of a validation.
* `Sound` — the invariant.

## Main results

* `Sound.log`, `Sound.destroy`, … — the changes of the world keep it.
* `Sound.change` — so does every change a request makes.
* `logged_validateServiceTicket`, `logged_validateProxyTicket` — no validation is
  missing from the history.
* `validated_sound` — **every validation of every run goes back to a login.**
-/

namespace BkPlatform.Cas

open Eff Log

/-! ### Where a ticket comes from -/

variable {config : Config} {history : List Entry}

/-- The ticket was granted in a `POST /login` in which an authenticator returned true for
exactly its username, which is the submitted one as it is prepared there. -/
def LoggedIn (config : Config) (history : List Entry) (tgt : TicketGrantingTicket) : Prop :=
  ∃ n r, r.endpoint = .postLogin ∧ r.loginUsername config = some tgt.username ∧
    ⟨n, r, .authenticated (some tgt.username)⟩ ∈ history ∧ ⟨n, r, .granted tgt⟩ ∈ history

/-- The ticket was issued from `tgt`. -/
inductive IssuedFrom (config : Config) (history : List Entry) (tgt : TicketGrantingTicket) :
    SPTicket → Prop
  /-- In the login that granted `tgt`. -/
  | login {n : ℕ} {r : Request} {st : SPTicket} (hendpoint : r.endpoint = .postLogin)
      (hgranted : ⟨n, r, .granted tgt⟩ ∈ history) (hissued : ⟨n, r, .issued st⟩ ∈ history) :
      IssuedFrom config history tgt st
  /-- In `GET /login` with the cookie of `tgt`, neither expired nor destroyed by then. -/
  | cookie {before after : List Entry} {n : ℕ} {r : Request} {st : SPTicket}
      (hhistory : history = before ++ ⟨n, r, .issued st⟩ :: after)
      (hendpoint : r.endpoint = .getLogin) (hcookie : r.tgt = some tgt.ticket)
      (hfresh : expired config r.now tgt = false)
      (halive : ∀ e ∈ before, e.event ≠ .destroyed tgt) : IssuedFrom config history tgt st
  /-- In `GET /proxy` with a proxy-granting ticket derived from a ticket issued from `tgt`. -/
  | proxy {n m : ℕ} {r q : Request} {st pt : SPTicket} {pgt : ProxyGrantingTicket}
      (hst : IssuedFrom config history tgt st) (hpgt : ⟨n, r, .proxyGranted pgt⟩ ∈ history)
      (hderived : pgt.serviceTicketId = st.id) (hendpoint : q.endpoint = .proxy)
      (hissued : ⟨m, q, .issued pt⟩ ∈ history) (hgranted : pt.grantedByPgtId = some pgt.id) :
      IssuedFrom config history tgt pt

/-- The row as it was when the ticket was issued. -/
def SPTicket.asIssued (st : SPTicket) : SPTicket := { st with consumed := none }

/-- The ticket was issued from a ticket-granting ticket of a login of its user. -/
def Accounted (config : Config) (history : List Entry) (st : SPTicket) : Prop :=
  ∃ tgt, LoggedIn config history tgt ∧ st.username = tgt.username ∧
    st.grantedByTgtId = some tgt.id ∧ IssuedFrom config history tgt st.asIssued

/-- What is claimed of an entry: a validated ticket is accounted for by what happened
before, and the service is the one it was issued for, after cleaning. -/
def ValidatedSound (config : Config) (before : List Entry) (e : Entry) : Prop :=
  ∀ service st, e.event = .validated service st →
    Accounted config before st ∧ cleanServiceUrl service = cleanServiceUrl st.service

theorem LoggedIn.append {tgt : TicketGrantingTicket} (h : LoggedIn config history tgt)
    (more : List Entry) : LoggedIn config (history ++ more) tgt := by
  obtain ⟨n, r, hendpoint, husername, hauth, hgranted⟩ := h
  exact ⟨n, r, hendpoint, husername, List.mem_append_left more hauth,
    List.mem_append_left more hgranted⟩

theorem IssuedFrom.append {tgt : TicketGrantingTicket} {st : SPTicket}
    (h : IssuedFrom config history tgt st) (more : List Entry) :
    IssuedFrom config (history ++ more) tgt st := by
  induction h with
  | login hendpoint hgranted hissued =>
    exact .login hendpoint (List.mem_append_left more hgranted)
      (List.mem_append_left more hissued)
  | @cookie before after n r st hhistory hendpoint hcookie hfresh halive =>
    have hmore : history ++ more = before ++ ⟨n, r, .issued st⟩ :: (after ++ more) := by
      rw [hhistory, List.append_assoc, List.cons_append]
    exact .cookie hmore hendpoint hcookie hfresh halive
  | proxy _ hpgt hderived hendpoint hissued hgranted ih =>
    exact .proxy ih (List.mem_append_left more hpgt) hderived hendpoint
      (List.mem_append_left more hissued) hgranted

theorem Accounted.append {st : SPTicket} (h : Accounted config history st)
    (more : List Entry) : Accounted config (history ++ more) st := by
  obtain ⟨tgt, hlogin, husername, hid, hissued⟩ := h
  exact ⟨tgt, hlogin.append more, husername, hid, hissued.append more⟩

/-- Consuming a ticket does not change where it comes from. -/
@[simp] theorem accounted_consume {now : ℤ} {st : SPTicket} :
    Accounted config history (Consumable.consume now st) ↔ Accounted config history st := Iff.rfl

/-! ### The invariant -/

/-- Every row accounts for itself, and every validation was sound.  A ticket-granting
ticket in the table has not been destroyed, and its key will not be used again. -/
structure Sound (config : Config) (history : List Entry)
    (grantingTickets : Table TicketGrantingTicket TicketGrantingTicket.id)
    (serviceTickets : Table SPTicket SPTicket.id)
    (proxyGrantingTickets : Table ProxyGrantingTicket ProxyGrantingTicket.id) : Prop where
  granted : ∀ tgt ∈ grantingTickets.rows, LoggedIn config history tgt
  alive : ∀ tgt ∈ grantingTickets.rows, ∀ e ∈ history, e.event ≠ .destroyed tgt
  destroyed : ∀ e ∈ history, ∀ tgt, e.event = .destroyed tgt → tgt.id < grantingTickets.nextId
  issued : ∀ st ∈ serviceTickets.rows, Accounted config history st
  proxies : ∀ pgt ∈ proxyGrantingTickets.rows, ∃ n r, ⟨n, r, .proxyGranted pgt⟩ ∈ history
  validated : Always (ValidatedSound config) history

/-- The invariant of a world. -/
abbrev World.Sound (config : Config) (w : World) : Prop :=
  Cas.Sound config w.history w.grantingTickets w.serviceTickets w.proxyGrantingTickets

theorem sound_empty : World.empty.Sound config where
  granted := by simp [World.empty]
  alive := by simp [World.empty]
  destroyed := by simp [World.empty]
  issued := by simp [World.empty]
  proxies := by simp [World.empty]
  validated := always_nil

section Changes

variable {gs : Table TicketGrantingTicket TicketGrantingTicket.id}
  {ss : Table SPTicket SPTicket.id} {ps : Table ProxyGrantingTicket ProxyGrantingTicket.id}

/-- One more event, if it is a sound validation or none. -/
theorem Sound.log (h : Sound config history gs ss ps) {e : Entry}
    (hkept : ∀ tgt, e.event ≠ .destroyed tgt) (hsound : ValidatedSound config history e) :
    Sound config (history ++ [e]) gs ss ps where
  granted := fun tgt htgt => (h.granted tgt htgt).append [e]
  alive := fun tgt htgt x hx => by
    rcases List.mem_append.mp hx with hold | hnew
    · exact h.alive tgt htgt x hold
    · rw [List.mem_singleton.mp hnew]
      exact hkept tgt
  destroyed := fun x hx tgt hdestroyed => by
    rcases List.mem_append.mp hx with hold | hnew
    · exact h.destroyed x hold tgt hdestroyed
    · rw [List.mem_singleton.mp hnew] at hdestroyed
      exact absurd hdestroyed (hkept tgt)
  issued := fun st hst => (h.issued st hst).append [e]
  proxies := fun pgt hpgt => by
    obtain ⟨n, r, hin⟩ := h.proxies pgt hpgt
    exact ⟨n, r, List.mem_append_left [e] hin⟩
  validated := always_snoc.mpr ⟨h.validated, hsound⟩

/-- The event neither ends a session nor accepts a ticket. -/
def Event.isQuiet : Event → Bool
  | .destroyed _ => false
  | .validated _ _ => false
  | _ => true

/-- One more event of this kind. -/
theorem Sound.logQuiet (h : Sound config history gs ss ps) {e : Entry}
    (hquiet : e.event.isQuiet = true) : Sound config (history ++ [e]) gs ss ps := by
  apply h.log
  · intro tgt heq
    rw [heq] at hquiet
    cases hquiet
  · intro service st heq
    rw [heq] at hquiet
    cases hquiet

/-- A ticket-granting ticket is destroyed. -/
theorem Sound.destroy (h : Sound config history gs ss ps) {tgt : TicketGrantingTicket}
    (htgt : tgt ∈ gs.rows) (n : ℕ) (r : Request) :
    Sound config (history ++ [⟨n, r, .destroyed tgt⟩]) (gs.keep fun row => row.id != tgt.id)
      ss ps where
  granted := fun row hrow => (h.granted row (Table.mem_keep.mp hrow).1).append _
  alive := fun row hrow x hx => by
    obtain ⟨hold, hid⟩ := Table.mem_keep.mp hrow
    rcases List.mem_append.mp hx with hx | hx
    · exact h.alive row hold x hx
    · rw [List.mem_singleton.mp hx]
      intro heq
      obtain rfl := Event.destroyed.inj heq
      simp at hid
  destroyed := fun x hx row hdestroyed => by
    rcases List.mem_append.mp hx with hx | hx
    · exact h.destroyed x hx row hdestroyed
    · rw [List.mem_singleton.mp hx] at hdestroyed
      obtain rfl := Event.destroyed.inj hdestroyed
      exact gs.fresh tgt htgt
  issued := fun st hst => (h.issued st hst).append _
  proxies := fun pgt hpgt => by
    obtain ⟨m, q, hin⟩ := h.proxies pgt hpgt
    exact ⟨m, q, List.mem_append_left _ hin⟩
  validated := always_snoc.mpr ⟨h.validated, fun _ _ heq => by cases heq⟩

/-- A ticket-granting ticket of a login is added. -/
theorem Sound.insertGranting (h : Sound config history gs ss ps) {tgt : ℕ → TicketGrantingTicket}
    (hid : ∀ id, (tgt id).id = id) (hlogin : LoggedIn config history (tgt gs.nextId)) :
    Sound config history (gs.insert tgt hid) ss ps where
  granted := fun row hrow => by
    rcases Table.mem_insert.mp hrow with hold | rfl
    · exact h.granted row hold
    · exact hlogin
  alive := fun row hrow x hx heq => by
    rcases Table.mem_insert.mp hrow with hold | rfl
    · exact h.alive row hold x hx heq
    · -- the key is new, so no ticket with it has been destroyed
      have hlt := h.destroyed x hx _ heq
      rw [hid] at hlt
      omega
  destroyed := fun x hx row heq => Nat.lt_succ_of_lt (h.destroyed x hx row heq)
  issued := h.issued
  proxies := h.proxies
  validated := h.validated

/-- A service or proxy ticket that is accounted for is added. -/
theorem Sound.insertTicket (h : Sound config history gs ss ps) {st : ℕ → SPTicket}
    (hid : ∀ id, (st id).id = id) (haccounted : Accounted config history (st ss.nextId)) :
    Sound config history gs (ss.insert st hid) ps where
  granted := h.granted
  alive := h.alive
  destroyed := h.destroyed
  issued := fun row hrow => by
    rcases Table.mem_insert.mp hrow with hold | rfl
    · exact h.issued row hold
    · exact haccounted
  proxies := h.proxies
  validated := h.validated

/-- A proxy-granting ticket is added. -/
theorem Sound.insertProxyGranting (h : Sound config history gs ss ps)
    {pgt : ℕ → ProxyGrantingTicket} (hid : ∀ id, (pgt id).id = id) {n : ℕ} {r : Request}
    (hlogged : ⟨n, r, .proxyGranted (pgt ps.nextId)⟩ ∈ history) :
    Sound config history gs ss (ps.insert pgt hid) where
  granted := h.granted
  alive := h.alive
  destroyed := h.destroyed
  issued := h.issued
  proxies := fun row hrow => by
    rcases Table.mem_insert.mp hrow with hold | rfl
    · exact h.proxies row hold
    · exact ⟨n, r, hlogged⟩
  validated := h.validated

/-- A ticket is consumed. -/
theorem Sound.consume (h : Sound config history gs ss ps) (now : ℤ) (st : SPTicket)
    (hid : ∀ row : SPTicket,
      (if row.id = st.id then Consumable.consume now row else row).id = row.id) :
    Sound config history gs
      (ss.modify (fun row => if row.id = st.id then Consumable.consume now row else row) hid)
      ps where
  granted := h.granted
  alive := h.alive
  destroyed := h.destroyed
  issued := fun row hrow => by
    obtain ⟨old, hold, rfl⟩ := Table.mem_modify.mp hrow
    split
    · exact accounted_consume.mpr (h.issued old hold)
    · exact h.issued old hold
  proxies := h.proxies
  validated := h.validated

/-- Service and proxy-granting tickets are destroyed. -/
theorem Sound.keep (h : Sound config history gs ss ps) (p : SPTicket → Bool)
    (q : ProxyGrantingTicket → Bool) : Sound config history gs (ss.keep p) (ps.keep q) where
  granted := h.granted
  alive := h.alive
  destroyed := h.destroyed
  issued := fun st hst => h.issued st (Table.mem_keep.mp hst).1
  proxies := fun pgt hpgt => h.proxies pgt (Table.mem_keep.mp hpgt).1
  validated := h.validated

end Changes

/-! ### What a change is made on -/

variable {c : Context} {P bad : World → Prop}

/-- What a login or a cookie gives a service ticket to be issued on. -/
def Entitled (c : Context) (history : List Entry) (tgt : TicketGrantingTicket) : Prop :=
  LoggedIn c.config history tgt ∧
    ((c.request.endpoint = .postLogin ∧ ⟨c.number, c.request, .granted tgt⟩ ∈ history) ∨
      (c.request.endpoint = .getLogin ∧ c.request.tgt = some tgt.ticket ∧
        expired c.config c.now tgt = false ∧ ∀ e ∈ history, e.event ≠ .destroyed tgt))

/-- The ticket that is issued on it is accounted for. -/
theorem Entitled.accounted {w : World} {tgt : TicketGrantingTicket} {st : SPTicket}
    (h : Entitled c w.history tgt) (hnew : st.consumed = none)
    (husername : st.username = tgt.username) (hid : st.grantedByTgtId = some tgt.id) :
    Accounted c.config (c.log w (.issued st)) st := by
  have hissued : st.asIssued = st := by
    rw [SPTicket.asIssued, ← hnew]
  obtain ⟨hlogin, hroute⟩ := h
  refine ⟨tgt, hlogin.append _, husername, hid, ?_⟩
  rw [hissued]
  rcases hroute with ⟨hendpoint, hgranted⟩ | ⟨hendpoint, hcookie, hfresh, halive⟩
  · exact .login hendpoint (List.mem_append_left _ hgranted)
      (List.mem_append_right _ (List.mem_singleton_self _))
  · exact .cookie rfl hendpoint hcookie hfresh halive

/-- What a change may issue a service ticket on. -/
theorem Sound.entitled {w : World} (h : w.Sound c.config) {tgt : TicketGrantingTicket}
    (hentitles : c.Entitles w tgt) : Entitled c w.history tgt := by
  refine ⟨h.granted tgt hentitles.row, ?_⟩
  rcases hentitles.route with hlogin | ⟨hendpoint, hcookie, hfresh⟩
  · exact Or.inl hlogin
  · exact Or.inr ⟨hendpoint, hcookie, hfresh, h.alive tgt hentitles.row⟩

/-- What a validator has found out about the ticket it returns. -/
def Checked (c : Context) (w : World) (service : Option String) (st : SPTicket) : Prop :=
  Accounted c.config w.history st ∧
    ∀ s, service = some s → cleanServiceUrl s = cleanServiceUrl st.service

/-- What a change may accept. -/
theorem Sound.checked {w : World} (h : w.Sound c.config) {service : String} {st : SPTicket}
    (hst : st ∈ w.serviceTickets.rows)
    (hservice : cleanServiceUrl service = cleanServiceUrl st.service) :
    Checked c w (some service) st := by
  refine ⟨h.issued st hst, fun s hs => ?_⟩
  obtain rfl := Option.some.inj hs
  exact hservice

/-! ### Changes of a request -/

/-- A proxy ticket is issued from what the service ticket of its proxy-granting ticket was
issued from. -/
theorem Sound.accountedProxy {w : World} (h : w.Sound c.config) {pgt : ProxyGrantingTicket}
    {st pt : SPTicket} (hendpoint : c.request.endpoint = .proxy)
    (hpgt : pgt ∈ w.proxyGrantingTickets.rows) (hst : serviceTicketOf w pgt = some st)
    (hnew : pt.consumed = none) (husername : pt.username = st.username)
    (htgt : pt.grantedByTgtId = st.grantedByTgtId) (hgranted : pt.grantedByPgtId = some pgt.id) :
    Accounted c.config (c.log w (.issued pt)) pt := by
  obtain ⟨hrow, -, hderived⟩ := serviceTicketOf_eq_some hst
  obtain ⟨tgt, hlogin, hname, hid, hissued⟩ := h.issued st hrow
  obtain ⟨n, r, hlogged⟩ := h.proxies pgt hpgt
  have hpt : pt.asIssued = pt := by
    rw [SPTicket.asIssued, ← hnew]
  refine ⟨tgt, hlogin.append _, husername.trans hname, htgt.trans hid, ?_⟩
  rw [hpt]
  exact .proxy (hissued.append _) (List.mem_append_left _ hlogged) hderived.symm hendpoint
    (List.mem_append_right _ (List.mem_singleton_self _)) hgranted

/-- **Every change a request makes keeps the invariant.** -/
theorem Sound.change {w w' : World} (h : w.Sound c.config) (hchange : Change c w w') :
    w'.Sound c.config := by
  cases hchange with
  | draw => exact h
  | setLoginTickets => exact h
  | authenticate => exact h.logQuiet rfl
  | @grant username extraAttributes hendpoint husername hauth =>
    have hlogin : LoggedIn c.config (c.log w (.granted (c.grantingTicket
        ("TGC-" ++ c.config.random w.drawn) username extraAttributes w.grantingTickets.nextId)))
        (c.grantingTicket ("TGC-" ++ c.config.random w.drawn) username extraAttributes
          w.grantingTickets.nextId) :=
      ⟨c.number, c.request, hendpoint, husername, List.mem_append_left _ hauth,
        List.mem_append_right _ (List.mem_singleton_self _)⟩
    exact (h.logQuiet rfl).insertGranting (fun _ => rfl) hlogin
  | issue hentitles =>
    exact (h.logQuiet rfl).insertTicket (fun _ => rfl)
      ((h.entitled hentitles).accounted rfl rfl rfl)
  | issueProxy hendpoint _ hpgt hst =>
    exact (h.logQuiet rfl).insertTicket (fun _ => rfl)
      (h.accountedProxy hendpoint hpgt hst rfl rfl rfl rfl)
  | grantProxy =>
    exact (h.logQuiet rfl).insertProxyGranting (fun _ => rfl)
      (List.mem_append_right _ (List.mem_singleton_self _))
  | @consume st => exact h.consume c.now st fun row => by split <;> rfl
  | @validate service st hst _ hservice =>
    refine h.log (fun _ heq => by cases heq) fun s t heq => ?_
    obtain ⟨rfl, rfl⟩ := Event.validated.inj heq
    obtain ⟨haccounted, hsame⟩ := h.checked hst hservice
    exact ⟨haccounted, hsame _ rfl⟩
  | destroy htgt => exact h.destroy htgt c.number c.request
  | destroyServiceTicket st =>
    have hkeep := h.keep (fun row => row.id != st.id) fun _ => true
    exact { hkeep with proxies := h.proxies }
  | destroyProxyGrantingTickets username =>
    have hkeep := h.keep (fun _ => true) fun pgt =>
      !(serviceTicketOf w pgt).any fun st => st.username == username
    exact { hkeep with issued := h.issued }

/-! ### No validation is missing -/

/-- What is in the history stays there. -/
theorem keeps_logValidated {service : Option String} {st : SPTicket} {error : Option Error}
    {e : Entry} :
    Triple (fun w => e ∈ w.history) (logValidated c service st error)
      (fun _ w => e ∈ w.history) bad := by
  unfold logValidated
  split
  · exact Triple.modify fun w hw => List.mem_append_left _ hw
  · exact Triple.pure fun w hw => hw

/-- A validation of a service ticket that returns without an error is in the history. -/
theorem logged_validateServiceTicket {service ticket : Option String}
    {allowProxyTickets : Bool} :
    Triple (fun _ => True) (validateServiceTicket c service ticket allowProxyTickets)
      (fun a w => ∀ st, a = (some st, none) →
        ∃ s, service = some s ∧ ⟨c.number, c.request, .validated s st⟩ ∈ w.history)
      (fun _ => True) := by
  unfold validateServiceTicket
  apply Triple.bind Triple.read
  intro w
  cases ticketFound w service ticket with
  | none => exact Triple.pure fun w' _ st heq => by cases heq
  | some st =>
    dsimp only
    apply Triple.bind (M := fun _ _ => True) (fun _ _ => trivial)
    intro st'
    cases herror : serviceTicketError c.config c.now service ticket (some st) allowProxyTickets with
    | some error =>
      refine Triple.bind (M := fun _ _ => True) ?_ fun _ =>
        Triple.pure fun w' _ st'' heq => by cases heq
      unfold logValidated
      split
      · exact Triple.modify fun _ _ => trivial
      · exact Triple.pure fun _ _ => trivial
    | none =>
      obtain ⟨-, s, row, rfl, -⟩ := serviceTicketError_eq_none.mp herror
      refine Triple.bind (M := fun _ w' => ⟨c.number, c.request, .validated s st'⟩ ∈ w'.history)
        (Triple.modify fun w' _ => ?_) fun _ => Triple.pure fun w' hw' st'' heq => ?_
      · exact List.mem_append_right _ (List.mem_singleton_self _)
      · obtain rfl : st' = st'' := Option.some.inj (Prod.mk.inj heq).1
        exact ⟨s, rfl, hw'⟩

/-- And so is one of a proxy ticket. -/
theorem logged_validateProxyTicket {service ticket : Option String} :
    Triple (fun _ => True) (validateProxyTicket c service ticket)
      (fun a w => ∀ st, a = (some st, none) →
        ∃ s, service = some s ∧ ⟨c.number, c.request, .validated s st⟩ ∈ w.history)
      (fun _ => True) := by
  unfold validateProxyTicket
  refine Triple.bind logged_validateServiceTicket ?_
  rintro ⟨pt, error⟩
  cases pt with
  | none => exact Triple.pure fun w _ st heq => by cases heq
  | some st =>
    cases error with
    | some error => exact Triple.pure fun w _ st heq => by cases heq
    | none =>
      apply Triple.bind Triple.read
      intro w w' hw'
      obtain ⟨s, hs, hlogged⟩ := hw' st rfl
      refine Triple.bind keeps_logValidated (fun _ => Triple.pure fun w'' hw'' st' heq => ?_)
        w' hlogged
      obtain rfl : st = st' := Option.some.inj (Prod.mk.inj heq).1
      exact ⟨s, hs, hw''⟩

/-! ### Runs -/

theorem sound_run (config : Config) (rs : List Request) : (run config rs).Sound config := by
  refine inv_run (fun c w w' hc hchange hw => ?_) (fun _ _ hw => hw) sound_empty rs
  subst hc
  exact hw.change hchange

/-- **Authentication is sound.**  In every run of requests, a ticket that validates was
issued from a ticket-granting ticket that was granted before, in a `POST /login` in which
an authenticator returned true for exactly the ticket's username, and the service asked
for is, after cleaning, the one the ticket was issued for. -/
theorem validated_sound (config : Config) (rs : List Request) :
    Always (ValidatedSound config) (run config rs).history :=
  (sound_run config rs).validated

/-- A login, and the validation of the ticket it issues. -/
def oneLogin : List Request :=
  [{ endpoint := .postLoginTicket, now := 0 },
   { endpoint := .postLogin, now := 10, service := some "http://app.example/",
     username := some " an ", lt := some "LT-0", auth := [fun _ _ _ => .accepted []] },
   { endpoint := .validate, now := 20, service := some "http://app.example",
     ticket := some "ST-3" }]

example : (run plainConfig oneLogin).history.map (fun e => e.event matches .validated _ _) =
    [false, false, false, true] := by decide +kernel

end BkPlatform.Cas