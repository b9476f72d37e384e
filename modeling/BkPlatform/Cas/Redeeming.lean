import BkPlatform.Cas.Cleaning
import BkPlatform.Cas.SignOut

/-!
# Redeeming a ticket

`/login` cleans the service it is given, stores the ticket for the result and sends the
browser there.  A validation cleans the service it is given once more, and the comparison
cleans both sides once more still.  So a service that comes back the way it was sent has
been cleaned three times, the stored one twice, and the two agree exactly if there is
nothing left to clean after two times: a parameter is taken out once each time, and one
character from the end of each line.

## Main definitions

* `SentWith` — the ticket is stored for the service, and the browser sent there with it.
* `PassesCheck` — the service of a validation is that of the ticket.

## Main results

* `redeems_iff` — **where the browser is sent, and exactly when its ticket can be redeemed
  there.**
-/

namespace BkPlatform.Cas

open Eff

/-- The ticket is stored for the service of the request, and the browser is sent there with
it. -/
def SentWith (c : Context) (st : SPTicket) (url : String) : Prop :=
  c.request.cleanService = some st.service ∧
    serviceUriWithTicket c.config.uriParse st.service st.ticket = .ok url

/-- The service of the request, cleaned by its endpoint, is that of the ticket. -/
def PassesCheck (r : Request) (st : SPTicket) : Prop :=
  ∃ service, r.cleanService = some service ∧ st.matchesService service = true

/-! ### Where the browser is sent -/

section Redirects

variable {c : Context} {rows : List SPTicket}

/-- A redirect that issues no ticket, or sends the browser with the one that is new. -/
def Redirected (c : Context) (rows : List SPTicket) (response : Response) (w : World) : Prop :=
  ∀ url, response = .redirect url → w.serviceTickets.rows = rows ∨
    ∃ st, w.serviceTickets.rows = rows ++ [st] ∧ SentWith c st url

theorem redirected_page {status : ℕ} {message : Option Message} {lt : String} {w : World} :
    Redirected c rows (.page status message lt) w := fun url h => by cases h

theorem redirected_loginForm {P : World → Prop} {message : Option Message} :
    Triple P (loginForm c message) (Redirected c rows) fun _ => True := by
  intro w _
  exact redirected_page

theorem ofServiceTickets_rows : OfServiceTickets fun w => w.serviceTickets.rows = rows := by
  intro w w' hsame hw
  rw [hsame, hw]

/-- A step that issues no ticket comes before what sends the browser away. -/
theorem Redirected.after {α : Type} {x : Handler α} {f : α → Handler Response}
    (hx : Keeps (fun w => w.serviceTickets.rows = rows) x)
    (hf : ∀ a, Triple (fun w => w.serviceTickets.rows = rows) (f a) (Redirected c rows)
      fun _ => True) :
    Triple (fun w => w.serviceTickets.rows = rows) (x >>= f) (Redirected c rows) fun _ => True :=
  Triple.bind (hx.weaken (fun _ hw => hw) (fun _ _ hw => hw) fun _ _ => trivial) hf

/-- A ticket is stored for the service it is generated for. -/
theorem stored_generateServiceTicket {service : String} {username : Option String}
    {tgt : TicketGrantingTicket} :
    Triple (fun w => w.serviceTickets.rows = rows) (generateServiceTicket c service username tgt)
      (fun st w => w.serviceTickets.rows = rows ++ [st] ∧ st.service = service)
      fun _ => True := by
  intro w hw
  cases username with
  | none => exact trivial
  | some username =>
    refine ⟨?_, rfl⟩
    show w.serviceTickets.rows ++ _ = rows ++ _
    rw [hw]

theorem redirected_redirectWithTicket {service : String} {st : SPTicket}
    (hservice : c.request.cleanService = some service) {invalid : Handler Response}
    (hinvalid : Triple (fun w => w.serviceTickets.rows = rows ++ [st] ∧ st.service = service)
      invalid (Redirected c rows) fun _ => True) :
    Triple (fun w => w.serviceTickets.rows = rows ++ [st] ∧ st.service = service)
      (redirectWithTicket c service st invalid) (Redirected c rows) fun _ => True := by
  unfold redirectWithTicket
  cases hurl : serviceUriWithTicket c.config.uriParse service st.ticket with
  | ok url =>
    refine Triple.pure fun w hw url' heq => Or.inr ⟨st, hw.1, ?_⟩
    obtain rfl := Response.redirect.inj heq
    rw [SentWith, hw.2]
    exact ⟨hservice, hurl⟩
  | error e =>
    cases e with
    | invalidUri => exact hinvalid
    | _ => exact Triple.raise fun _ _ => trivial

theorem redirected_getLogin :
    Triple (fun w => w.serviceTickets.rows = rows) (getLogin c) (Redirected c rows)
      fun _ => True := by
  refine Redirected.after (keeps_cookieTicket ofServiceTickets_rows) fun tgt => ?_
  split
  · next service tgt hservice =>
    refine Triple.ite (fun _ => redirected_loginForm) fun _ => ?_
    exact Triple.bind stored_generateServiceTicket fun st =>
      redirected_redirectWithTicket hservice redirected_loginForm
  · -- the redirect of the gateway issues no ticket
    exact Triple.ite (fun _ => Triple.pure fun w hw _ _ => Or.inl hw) fun _ => redirected_loginForm
  · exact Triple.ite (fun _ => redirected_loginForm) fun _ => redirected_loginForm

theorem redirected_login {lt : String} :
    Triple (fun w => w.serviceTickets.rows = rows) (login c lt) (Redirected c rows)
      fun _ => True := by
  refine Redirected.after (keeps_authenticate ofServiceTickets_rows c.request.auth)
    fun credentials => ?_
  cases credentials with
  | none => exact Triple.pure fun _ _ => redirected_page
  | some extraAttributes =>
    refine Redirected.after (keeps_generateTicketGrantingTicket ofServiceTickets_rows)
      fun tgt => ?_
    split
    · exact Triple.pure fun _ _ => redirected_page
    · next service hservice =>
      refine Triple.ite (fun _ => Triple.pure fun _ _ => redirected_page) fun _ => ?_
      exact Triple.bind stored_generateServiceTicket fun st =>
        redirected_redirectWithTicket hservice (Triple.pure fun _ _ => redirected_page)

theorem redirected_postLogin :
    Triple (fun w => w.serviceTickets.rows = rows) (postLogin c) (Redirected c rows)
      fun _ => True := by
  refine Redirected.after (keeps_validateLoginTicket ofServiceTickets_rows) fun error =>
    Redirected.after (keeps_generateLoginTicket ofServiceTickets_rows) fun lt => ?_
  cases error with
  | some message => exact Triple.pure fun _ _ => redirected_page
  | none =>
    refine Triple.rescue redirected_login fun e => ?_
    unfold authenticatorFailed
    split
    · exact fun _ _ => redirected_page
    · exact Triple.raise fun _ _ => trivial

end Redirects

/-! ### Redeeming -/

section Redeeming

variable {config : Config} {w : World} {r : Request} {st : SPTicket} {url : String}

/-- The browser is sent to the cleaned service, with the ticket that has been stored for
it. -/
theorem sentWith_of_redirect (hlogin : r.endpoint = .getLogin ∨ r.endpoint = .postLogin)
    (hredirect : answer config w r = .ok (.redirect url)) (hold : st ∉ w.serviceTickets.rows)
    (hnew : st ∈ (handle config w r).serviceTickets.rows) :
    SentWith (contextOf config w r) st url := by
  have htriple : Triple (fun w' => w'.serviceTickets.rows = w.serviceTickets.rows)
      (respond (contextOf config w r)) (Redirected (contextOf config w r) w.serviceTickets.rows)
      fun _ => True := by
    rcases hlogin with hendpoint | hendpoint
    · have hrespond : respond (contextOf config w r) = getLogin (contextOf config w r) :=
        respond_getLogin hendpoint
      rw [hrespond]
      exact redirected_getLogin
    · have hrespond : respond (contextOf config w r) = postLogin (contextOf config w r) :=
        respond_postLogin hendpoint
      rw [hrespond]
      exact redirected_postLogin
  have hrun := htriple { w with requests := w.requests + 1 } rfl
  have hanswer : (Eff.run (respond (contextOf config w r))
      { w with requests := w.requests + 1 }).1 = .ok (.redirect url) := hredirect
  rcases hout : Eff.run (respond (contextOf config w r)) { w with requests := w.requests + 1 }
    with ⟨out, w'⟩
  have hstate : handle config w r = w' := congrArg Prod.snd hout
  rw [hout] at hrun hanswer
  obtain rfl : out = .ok (.redirect url) := hanswer
  rw [hstate] at hnew
  rcases hrun url rfl with hsame | ⟨st', hrows, hsent⟩
  · rw [hsame] at hnew
    exact absurd hnew hold
  · rw [hrows] at hnew
    rcases List.mem_append.mp hnew with hmem | hlast
    · exact absurd hmem hold
    · rwa [List.mem_singleton.mp hlast]

/-- The URL with a ticket is the service, a separator and the ticket. -/
theorem eq_of_serviceUriWithTicket {uriParse : String → Option Uri} {service ticket : String}
    (h : serviceUriWithTicket uriParse service ticket = .ok url) :
    ∃ separator ∈ ["", "&", "?"], url = service ++ separator ++ "ticket=" ++ ticket := by
  unfold serviceUriWithTicket at h
  split at h
  · cases h
  · split at h
    · split at h
      · cases h
      · obtain rfl := Except.ok.inj h
        refine ⟨_, ?_, rfl⟩
        split
        · simp
        · simp
    · obtain rfl := Except.ok.inj h
      exact ⟨"?", by simp, by simp [String.append_assoc]⟩

/-- A service that has been cleaned passes the check of a ticket stored for it exactly if
cleaning it once more leaves nothing to clean. -/
theorem passesCheck_iff {v : Request} (hv : v.service = some st.service) :
    PassesCheck v st ↔ Settled (cleanServiceUrl st.service) := by
  have hclean : v.cleanService = some (cleanServiceUrl st.service) := by
    rw [Request.cleanService, hv, Option.map_some]
  rw [← cleanServiceUrl_eq_iff, PassesCheck, hclean]
  simp only [Option.some.injEq, exists_eq_left', SPTicket.matchesService, beq_iff_eq]
  exact eq_comm

/-- **The ticket is stored for the cleaned service and the browser sent there with it, and
it can be redeemed there iff two cleanings of the service leave nothing to clean.** -/
theorem redeems_iff (hlogin : r.endpoint = .getLogin ∨ r.endpoint = .postLogin)
    (hredirect : answer config w r = .ok (.redirect url)) (hold : st ∉ w.serviceTickets.rows)
    (hnew : st ∈ (handle config w r).serviceTickets.rows) :
    ∃ u, r.service = some u ∧ st.service = cleanServiceUrl u ∧
      (∃ separator ∈ ["", "&", "?"],
        url = cleanServiceUrl u ++ separator ++ "ticket=" ++ st.ticket) ∧
      ∀ v : Request, v.service = some (cleanServiceUrl u) →
        (PassesCheck v st ↔ Settled (cleanServiceUrl (cleanServiceUrl u))) := by
  obtain ⟨hservice, hurl⟩ := sentWith_of_redirect hlogin hredirect hold hnew
  obtain ⟨u, hu, hclean⟩ := Option.map_eq_some_iff.mp hservice
  refine ⟨u, hu, hclean.symm, ?_, fun v hv => ?_⟩
  · rw [hclean]
    exact eq_of_serviceUriWithTicket hurl
  · rw [hclean] at hv ⊢
    exact passesCheck_iff hv

end Redeeming

/-- A login for a service, when the first login ticket has been issued. -/
def loginFor (service : String) : Request :=
  { endpoint := .postLogin, now := 10, service := some service, username := some "an",
    lt := some "LT-0", auth := [fun _ _ _ => .accepted []] }

/-- The state in which that is so. -/
def firstOffered : World := run plainConfig [{ endpoint := .postLoginTicket, now := 0 }]

/-- The ticket of that login. -/
def ticketFor (service : String) : SPTicket :=
  { id := 1, ticket := "ST-3", service := service, createdOn := 10, consumed := none,
    clientHostname := "127.0.0.1", username := "an", type := .serviceTicket,
    grantedByPgtId := none, grantedByTgtId := some 1 }

/-- URIs with a query, as those of the next login are. -/
def queryConfig : Config :=
  .default (fun _ => some ⟨some "/", some "ticket=2&ticket=3"⟩) fun n => toString n

/-- Three tickets are too many: the service the browser is sent to is refused. -/
theorem not_redeemed_tickets :
    answer queryConfig firstOffered (loginFor "http://app.example/?ticket=1&ticket=2&ticket=3") =
        .ok (.redirect "http://app.example/?ticket=2&ticket=3&ticket=ST-3") ∧
      ticketFor "http://app.example/?ticket=2&ticket=3" ∈ (handle queryConfig firstOffered
        (loginFor "http://app.example/?ticket=1&ticket=2&ticket=3")).serviceTickets.rows ∧
      ¬ PassesCheck { endpoint := .validate, now := 20,
                      service := some "http://app.example/?ticket=2&ticket=3",
                      ticket := some "ST-3" }
          (ticketFor "http://app.example/?ticket=2&ticket=3") := by
  refine ⟨by decide +kernel, by decide +kernel, ?_⟩
  rintro ⟨service, hservice, hmatches⟩
  obtain rfl := Option.some.inj hservice
  exact absurd hmatches (by decide +kernel)

/-- What the theorem says of a login with one slash. -/
theorem redeems_slash :
    ∃ u, (loginFor "http://app.example/").service = some u ∧
      (ticketFor "http://app.example").service = cleanServiceUrl u ∧
      (∃ separator ∈ ["", "&", "?"], "http://app.example?ticket=ST-3" =
        cleanServiceUrl u ++ separator ++ "ticket=" ++ (ticketFor "http://app.example").ticket) ∧
      ∀ v : Request, v.service = some (cleanServiceUrl u) →
        (PassesCheck v (ticketFor "http://app.example") ↔
          Settled (cleanServiceUrl (cleanServiceUrl u))) :=
  @redeems_iff plainConfig firstOffered (loginFor "http://app.example/") _ _ (Or.inr rfl)
    (by decide +kernel) (by decide +kernel) (by decide +kernel)

end BkPlatform.Cas
