import BkPlatform.Cas.Logout

/-!
# Whether a logout goes through

With single sign-out, a logout tells every service of the session that it is over,
within the transaction that ends the session.  The address of a service is parsed
for that; one that cannot be parsed, or has no path, raises, and the session is
still there afterwards.  A login issues its service ticket before it parses the
service, so a session may well have such a service.

## Main definitions

* `Notifiable config service` — a notification can be sent to the service.
* `SignsOut config w r t` — the logout goes through, and nothing is left of `t`.
* `OfServiceTickets` — a property of the service tickets alone.
* `AllNotifiable` — the services of all service tickets are notifiable.

## Main results

* `returns_logout_iff` — when a logout returns.
* `signsOut_iff` — **a user can log out iff every service of the session is notifiable.**
* `allNotifiable_run`, `signsOut_of_services` — it is enough that no login names another
  service.
-/

namespace BkPlatform.Cas

open Eff Relation

/-! ### When a logout returns -/

/-- The service is a URI with a path. -/
def Notifiable (config : Config) (service : String) : Prop :=
  ∃ uri, config.uriParse service = some uri ∧ uri.path.isSome = true

section Returns

variable {c : Context} {w : World} {t : TicketGrantingTicket}

/-- A notification is sent where the service is notifiable, and nowhere else. -/
theorem run_notifyService {st : SPTicket} (h : Notifiable c.config st.service) (w : World) :
    Eff.run (notifyService c st) w = (.ok (), w) := by
  obtain ⟨uri, huri, hpath⟩ := h
  rw [notifyService, sendLogoutNotification, huri]
  obtain ⟨path, hsome⟩ := Option.isSome_iff_exists.mp hpath
  cases c.config.enableSingleSignOut
  · rfl
  · simp [hsome]

theorem not_returns_notifyService {st : SPTicket} (hsso : c.config.enableSingleSignOut = true)
    (h : ¬ Notifiable c.config st.service) (w : World) : ¬ Returns (notifyService c st) w := by
  rw [notifyService, if_pos hsso, sendLogoutNotification]
  cases huri : c.config.uriParse st.service with
  | none => exact not_returns_of_error (run_raise _ _)
  | some uri =>
    have hpath : uri.path.isNone = true := by
      rw [Option.isNone_iff_eq_none]
      by_contra hsome
      exact h ⟨uri, huri, Option.isSome_iff_ne_none.mpr hsome⟩
    dsimp only
    rw [if_pos hpath]
    exact not_returns_of_error (run_raise _ _)

theorem returns_destroyServiceTickets_iff (hsso : c.config.enableSingleSignOut = true)
    (sts : List SPTicket) (w : World) : Returns (destroyServiceTickets c sts) w ↔
      ∀ st ∈ sts, Notifiable c.config st.service := by
  induction sts generalizing w with
  | nil => exact iff_of_true ⟨(), w, rfl⟩ fun _ hst => absurd hst List.not_mem_nil
  | cons st rest ih =>
    rw [destroyServiceTickets, List.forall_mem_cons]
    by_cases h : Notifiable c.config st.service
    · -- the rest is told after the row has gone
      rw [and_iff_right h, returns_bind_iff]
      constructor
      · rintro ⟨-, w', hrun, hrest⟩
        obtain ⟨-, w'', -, hreturns⟩ := returns_bind_iff.mp hrest
        exact (ih w'').mp hreturns
      · intro hall
        exact ⟨(), w, run_notifyService h w,
          returns_bind_iff.mpr ⟨(), _, run_modify _ _, (ih _).mpr hall⟩⟩
    · refine iff_of_false (fun hreturns => ?_) fun hall => h hall.1
      obtain ⟨a, w', hrun, -⟩ := returns_bind_iff.mp hreturns
      exact not_returns_notifyService hsso h w ⟨a, w', hrun⟩

/-- A logout with the cookie of `t` returns exactly if every service of the session is
notifiable. -/
theorem returns_logout_iff (hsso : c.config.enableSingleSignOut = true)
    (hfind : findGrantingTicket w c.request.tgt = some t) :
    Returns (logout c) w ↔ ∀ st ∈ grantedServiceTickets w t, Notifiable c.config st.service := by
  have hform : ∀ w', Returns (generateLoginTicket c) w' := fun w' => ⟨_, _, rfl⟩
  have hend : Returns (logout c) w ↔ Returns (endCookieSession c) w := by
    refine returns_bind_of_forall fun _ w' => (returns_bind_of_forall fun lt w'' => ?_).mpr
      (hform w')
    split
    · exact ⟨_, _, run_pure _ _⟩
    · exact ⟨_, _, run_pure _ _⟩
  have hsession : Returns (endCookieSession c) w ↔
      Returns (Eff.transaction (endSession c t)) w := by
    rw [endCookieSession, returns_bind_iff]
    constructor
    · rintro ⟨w', w'', hget, hreturns⟩
      cases hget
      rwa [hfind] at hreturns
    · intro hreturns
      refine ⟨w, w, run_get w, ?_⟩
      rwa [hfind]
  have htickets : Returns (endSession c t) w ↔
      Returns (destroyServiceTickets c (grantedServiceTickets w t)) w := by
    rw [endSession, returns_bind_iff]
    constructor
    · rintro ⟨w', w'', hget, hreturns⟩
      cases hget
      obtain ⟨a, w', hrun, -⟩ := returns_bind_iff.mp hreturns
      exact ⟨a, w', hrun⟩
    · intro hreturns
      exact ⟨w, w, run_get w, (returns_bind_of_forall fun _ _ => ⟨_, _, rfl⟩).mpr hreturns⟩
  rw [hend, hsession, returns_transaction_iff, htickets, returns_destroyServiceTickets_iff hsso]

end Returns

/-! ### Steps that leave the service tickets alone -/

/-- A property of the service tickets. -/
def OfServiceTickets (I : World → Prop) : Prop :=
  ∀ w w' : World, w'.serviceTickets = w.serviceTickets → I w → I w'

section Alone

variable {c : Context} {I : World → Prop}

theorem keeps_loginForm (hI : OfServiceTickets I) {message : Option Message} :
    Keeps I (loginForm c message) := fun w hw => hI w _ rfl hw

theorem keeps_cookieTicket (hI : OfServiceTickets I) : Keeps I (cookieTicket c) := by
  unfold cookieTicket
  split
  · exact Keeps.pure
  · refine Keeps.bind (Triple.bind Triple.read fun w => ?_) fun _ => Keeps.pure
    split
    · exact Keeps.pure
    · exact Keeps.pure
    · exact Keeps.ite (fun _ => fun w hw => hI w _ rfl hw) fun _ => Keeps.pure

theorem keeps_authenticate (hI : OfServiceTickets I) {username password service : Option String}
    (auth : List Authenticator) : Keeps I (authenticate c username password service auth) := by
  induction auth with
  | nil => exact Keeps.pure
  | cons a rest ih =>
    rw [authenticate]
    split
    · exact fun w hw => hI w _ rfl hw
    · exact ih
    · exact Keeps.raise

theorem keeps_generateTicketGrantingTicket (hI : OfServiceTickets I) {username : Option String}
    {extraAttributes : ExtraAttributes} :
    Keeps I (generateTicketGrantingTicket c username extraAttributes) := by
  intro w hw
  cases username with
  | none => exact hI w _ rfl hw
  | some username => exact hI w _ rfl hw

theorem keeps_validateLoginTicket (hI : OfServiceTickets I) {ticket : Option String} :
    Keeps I (validateLoginTicket c ticket) := by
  refine Triple.bind Triple.read fun w => Keeps.bind ?_ fun _ => Keeps.pure
  cases ticket.bind (findLoginTicket w) with
  | none => exact Keeps.pure
  | some lt => exact fun w hw => hI w _ rfl hw

theorem keeps_generateLoginTicket (hI : OfServiceTickets I) : Keeps I (generateLoginTicket c) :=
  fun w hw => hI w _ rfl hw

end Alone

/-! ### Runs with notifiable services -/

/-- The services of all service tickets are notifiable. -/
def AllNotifiable (config : Config) (w : World) : Prop :=
  ∀ st ∈ w.serviceTickets.rows, st.type = .serviceTicket → Notifiable config st.service

/-- A login for a service that is not notifiable is none of these requests. -/
def Request.NamesNotifiable (config : Config) (r : Request) : Prop :=
  r.endpoint = .getLogin ∨ r.endpoint = .postLogin →
    ∀ service, r.cleanService = some service → Notifiable config service

section Services

variable {c : Context} {w w' : World}

theorem ofServiceTickets_notifiable {config : Config} :
    OfServiceTickets (AllNotifiable config) := by
  intro w w' hsame h st hst
  rw [hsame] at hst
  exact h st hst

/-- A service ticket is issued for a notifiable service. -/
theorem notifiable_generateServiceTicket {service : String} {username : Option String}
    {tgt : TicketGrantingTicket} (h : Notifiable c.config service) :
    Keeps (AllNotifiable c.config) (generateServiceTicket c service username tgt) := by
  intro w hw
  cases username with
  | none => exact hw
  | some username =>
    intro st hst htype
    rcases Table.mem_insert.mp hst with hold | rfl
    · exact hw st hold htype
    · exact h

theorem notifiable_getLogin
    (h : ∀ service, c.request.cleanService = some service → Notifiable c.config service) :
    Keeps (AllNotifiable c.config) (getLogin c) := by
  have hform : ∀ {message}, Keeps (AllNotifiable c.config) (loginForm c message) :=
    keeps_loginForm ofServiceTickets_notifiable
  apply Keeps.bind (keeps_cookieTicket ofServiceTickets_notifiable)
  intro tgt
  split
  · next service tgt hservice =>
    apply Keeps.ite (fun _ => hform)
    intro _
    exact Keeps.bind (notifiable_generateServiceTicket (h service hservice)) fun st =>
      keeps_redirectWithTicket hform
  · exact Keeps.ite (fun _ => Keeps.pure) fun _ => hform
  · exact Keeps.ite (fun _ => hform) fun _ => hform

theorem notifiable_login {lt : String}
    (h : ∀ service, c.request.cleanService = some service → Notifiable c.config service) :
    Keeps (AllNotifiable c.config) (login c lt) := by
  apply Keeps.bind (keeps_authenticate ofServiceTickets_notifiable c.request.auth)
  intro credentials
  cases credentials with
  | none => exact Keeps.pure
  | some extraAttributes =>
    apply Keeps.bind (keeps_generateTicketGrantingTicket ofServiceTickets_notifiable)
    intro tgt
    split
    · exact Keeps.pure
    · next service hservice =>
      apply Keeps.ite (fun _ => Keeps.pure)
      intro _
      exact Keeps.bind (notifiable_generateServiceTicket (h service hservice)) fun st =>
        keeps_redirectWithTicket Keeps.pure

theorem notifiable_postLogin
    (h : ∀ service, c.request.cleanService = some service → Notifiable c.config service) :
    Keeps (AllNotifiable c.config) (postLogin c) := by
  refine Keeps.bind (keeps_validateLoginTicket ofServiceTickets_notifiable) fun error =>
    Keeps.bind (keeps_generateLoginTicket ofServiceTickets_notifiable) fun lt => ?_
  cases error with
  | some message => exact Keeps.pure
  | none =>
    apply Triple.rescue (notifiable_login h)
    intro e
    unfold authenticatorFailed
    split
    · exact fun _ hw => hw
    · exact Keeps.raise

/-- No other route issues a service ticket. -/
theorem AllNotifiable.change (hget : c.request.endpoint ≠ .getLogin)
    (hpost : c.request.endpoint ≠ .postLogin) (hchange : Change c w w')
    (h : AllNotifiable c.config w) : AllNotifiable c.config w' := by
  cases hchange with
  | issue hentitles =>
    rcases hentitles.route with ⟨hendpoint, -⟩ | ⟨hendpoint, -⟩
    · exact absurd hendpoint hpost
    · exact absurd hendpoint hget
  | issueProxy =>
    intro st hst htype
    rcases List.mem_append.mp hst with hold | hnew
    · exact h st hold htype
    · rw [List.mem_singleton.mp hnew] at htype
      cases htype
  | consume =>
    intro st hst
    obtain ⟨old, hold, rfl⟩ := List.mem_map.mp hst
    split
    · exact h old hold
    · exact h old hold
  | destroyServiceTicket => exact fun st hst => h st (Table.mem_keep.mp hst).1
  | _ => exact h

/-- A request that names no other service leaves the services notifiable. -/
theorem AllNotifiable.handle {config : Config} {r : Request} (h : AllNotifiable config w)
    (hr : r.NamesNotifiable config) : AllNotifiable config (handle config w r) := by
  by_cases hget : r.endpoint = .getLogin
  · have hlogin := @notifiable_getLogin (contextOf config w r) (hr (Or.inl hget))
    have hrespond : respond (contextOf config w r) = getLogin (contextOf config w r) :=
      respond_getLogin hget
    rw [← hrespond] at hlogin
    exact hlogin.state h
  · by_cases hpost : r.endpoint = .postLogin
    · have hlogin := @notifiable_postLogin (contextOf config w r) (hr (Or.inr hpost))
      have hrespond : respond (contextOf config w r) = postLogin (contextOf config w r) :=
        respond_postLogin hpost
      rw [← hrespond] at hlogin
      exact hlogin.state h
    · exact inv_handle (fun _ _ hchange hw => hw.change hget hpost hchange) (fun hw => hw) h

theorem allNotifiable_run {config : Config} {rs : List Request}
    (hrs : ∀ r ∈ rs, r.NamesNotifiable config) : AllNotifiable config (run config rs) :=
  Run.foldl_inv_along (G := fun _ r => r.NamesNotifiable config)
    (fun _ _ hw hr => hw.handle hr) (fun _ hst => absurd hst List.not_mem_nil)
    (Run.along_total_of_forall hrs _)

end Services

/-! ### Signing out -/

/-- The logout goes through, and the ticket-granting ticket is gone with its service
tickets. -/
structure SignsOut (config : Config) (w : World) (r : Request) (t : TicketGrantingTicket) :
    Prop where
  answered : ∃ response, answer config w r = .ok response
  granting : t ∉ (handle config w r).grantingTickets.rows
  service : grantedServiceTickets (handle config w r) t = []

section SignOut

variable {config : Config} {t : TicketGrantingTicket} {w : World} {r : Request}

/-- A logout that returns has signed out. -/
theorem signsOut_iff_answered (hendpoint : r.endpoint = .logout)
    (hfind : findGrantingTicket w r.tgt = some t) :
    SignsOut config w r t ↔ ∃ response, answer config w r = .ok response := by
  refine ⟨SignsOut.answered, ?_⟩
  rintro ⟨response, hanswer⟩
  have hout := loggedOut_of_answer hendpoint hfind hanswer
  refine ⟨⟨response, hanswer⟩, fun ht => ?_, List.filter_eq_nil_iff.mpr fun st hst => ?_⟩
  · rw [hout.granting] at ht
    exact bne_iff_ne.mp (Table.mem_keep.mp ht).2 rfl
  · have hnot := ((hout.service st).mp hst).2
    simpa using hnot

/-- A logout is answered exactly if every service of the session is notifiable. -/
theorem answered_iff (hsso : config.enableSingleSignOut = true) (hendpoint : r.endpoint = .logout)
    (hfind : findGrantingTicket w r.tgt = some t) :
    (∃ response, answer config w r = .ok response) ↔
      ∀ st ∈ grantedServiceTickets w t, Notifiable config st.service := by
  have hrespond : respond (contextOf config w r) = logout (contextOf config w r) :=
    respond_logout hendpoint
  have hlogout := @returns_logout_iff (contextOf config w r)
    { w with requests := w.requests + 1 } t hsso hfind
  rw [← hrespond, returns_iff] at hlogout
  exact hlogout

/-- **A user can log out iff every service of the session is notifiable.**  A service that
is not has been stored by a login before its address was looked at. -/
theorem signsOut_iff {rs : List Request} (hsso : config.enableSingleSignOut = true)
    (hendpoint : r.endpoint = .logout)
    (hcookie : findGrantingTicket (run config rs) r.tgt = some t) :
    SignsOut config (run config rs) r t ↔
      ∀ st ∈ grantedServiceTickets (run config rs) t, Notifiable config st.service := by
  rw [signsOut_iff_answered hendpoint hcookie, answered_iff hsso hendpoint hcookie]

/-- It is enough that no login names a service that is not notifiable. -/
theorem signsOut_of_services {rs : List Request} (hrs : ∀ q ∈ rs, q.NamesNotifiable config)
    (hsso : config.enableSingleSignOut = true) (hendpoint : r.endpoint = .logout)
    (hcookie : findGrantingTicket (run config rs) r.tgt = some t) :
    SignsOut config (run config rs) r t := by
  refine (signsOut_iff_answered hendpoint hcookie).mpr
    ((answered_iff hsso hendpoint hcookie).mpr fun st hst => ?_)
  obtain ⟨hrow, hgranted⟩ := List.mem_filter.mp hst
  rw [Bool.and_eq_true, beq_iff_eq] at hgranted
  exact allNotifiable_run hrs st hrow hgranted.1

end SignOut

/-- Single sign-out is enabled, and no URI has a bar in it. -/
def ssoConfig : Config :=
  { plainConfig with
    enableSingleSignOut := true
    uriParse := fun s => if s.toList.contains '|' then none else some ⟨some "/", none⟩ }

/-- A login for a service that is not a URI. -/
def loginForBar : List Request :=
  [{ endpoint := .postLoginTicket, now := 0 },
   { endpoint := .postLogin, now := 10, service := some "http://app.example/a|b",
     username := some "an", lt := some "LT-0", auth := [fun _ _ _ => .accepted []] }]

/-- The login goes through with a message, and the logout raises and is rolled back. -/
theorem stays_signedIn :
    findGrantingTicket (run ssoConfig loginForBar) firstLogsOut.tgt = some firstTicket ∧
      answer ssoConfig (run ssoConfig loginForBar) firstLogsOut = .error .invalidUri ∧
      firstTicket ∈ (handle ssoConfig (run ssoConfig loginForBar)
        firstLogsOut).grantingTickets.rows ∧
      ¬ SignsOut ssoConfig (run ssoConfig loginForBar) firstLogsOut firstTicket := by
  have hraises : answer ssoConfig (run ssoConfig loginForBar) firstLogsOut =
      .error .invalidUri := by decide +kernel
  refine ⟨by decide +kernel, hraises, by decide +kernel, fun hout => ?_⟩
  obtain ⟨response, hanswer⟩ := hout.answered
  rw [hraises] at hanswer
  cases hanswer

/-- What the theorem says of this logout. -/
theorem signsOut_loginForBar_iff :
    SignsOut ssoConfig (run ssoConfig loginForBar) firstLogsOut firstTicket ↔
      ∀ st ∈ grantedServiceTickets (run ssoConfig loginForBar) firstTicket,
        Notifiable ssoConfig st.service :=
  @signsOut_iff ssoConfig firstTicket firstLogsOut loginForBar rfl rfl (by decide +kernel)

end BkPlatform.Cas
