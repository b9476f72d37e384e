import BkPlatform.Cas.Burning

/-!
# The authenticators of a login

A login asks its authenticators in their order.  One that refuses the credentials
makes way for the next; one that raises does not, since the exception is rescued
around the whole loop, and the login is refused whatever the others would have
said.  An accepted login without a username has no row to save either.

## Main definitions

* `Request.results` — what each authenticator makes of the credentials.
* `Grants`, `Accepts` — a ticket is granted, and some authenticator accepts.
* `Reached` — an acceptance with nothing but refusals before it.

## Main results

* `run_authenticate` — the loop stops at the first result that is no refusal.
* `fallsThrough_iff` — **a ticket is granted iff some authenticator accepts, exactly where
  an acceptance is reached.**
-/

namespace BkPlatform.Cas

open RubyString Eff

/-! ### The loop -/

/-- What each authenticator makes of the credentials. -/
def Request.results (config : Config) (r : Request) : List AuthResult :=
  r.auth.map fun auth => auth (r.loginUsername config) r.password r.cleanService

/-- The first result that is not a refusal. -/
def firstAnswer (results : List AuthResult) : Option AuthResult :=
  results.find? fun result => result != .refused

/-- Some authenticator accepts. -/
def Accepts (results : List AuthResult) : Prop :=
  ∃ extraAttributes, AuthResult.accepted extraAttributes ∈ results

/-- An acceptance has nothing but refusals before it. -/
def Reached (results : List AuthResult) : Prop :=
  ∃ before extraAttributes after, results = before ++ .accepted extraAttributes :: after ∧
    ∀ result ∈ before, result = .refused

section Loop

variable {results : List AuthResult}

/-- The first answer is an acceptance exactly if one is reached. -/
theorem reached_iff : Reached results ↔
    ∃ extraAttributes, firstAnswer results = some (.accepted extraAttributes) := by
  simp only [Reached, firstAnswer, List.find?_eq_some_iff_append, bne_iff_ne, ne_eq, reduceCtorEq,
    not_false_eq_true, true_and]
  constructor
  · rintro ⟨before, extraAttributes, after, hresults, hrefused⟩
    refine ⟨extraAttributes, before, after, hresults, fun result hresult => ?_⟩
    simp [hrefused result hresult]
  · rintro ⟨extraAttributes, before, after, hresults, hrefused⟩
    exact ⟨before, extraAttributes, after, hresults, fun result hresult => by
      simpa using hrefused result hresult⟩

theorem Reached.accepts (h : Reached results) : Accepts results := by
  obtain ⟨before, extraAttributes, after, rfl, -⟩ := h
  exact ⟨extraAttributes, List.mem_append_right _ List.mem_cons_self⟩

/-- **The loop stops at the first result that is no refusal.** -/
theorem run_authenticate (c : Context) (username password service : Option String)
    (auth : List Authenticator) (w : World) :
    Eff.run (authenticate c username password service auth) w =
      match firstAnswer (auth.map fun a => a username password service) with
      | some (.accepted extraAttributes) =>
        (.ok (some extraAttributes), { w with history := c.log w (.authenticated username) })
      | some (.raised e) => (.error e, w)
      | _ => (.ok none, w) := by
  induction auth with
  | nil => rfl
  | cons a rest ih =>
    rw [authenticate, List.map_cons, firstAnswer, List.find?_cons]
    cases a username password service with
    | accepted extraAttributes => rfl
    | refused => exact ih
    | raised e => rfl

end Loop

/-! ### What a login does to the ticket-granting tickets -/

section Login

variable {c : Context} {P : Table TicketGrantingTicket TicketGrantingTicket.id → Prop}
  {T : Table TicketGrantingTicket TicketGrantingTicket.id}

/-- One more ticket-granting ticket than in `T`. -/
def OneMore (T T' : Table TicketGrantingTicket TicketGrantingTicket.id) : Prop :=
  ∃ tgt, tgt.id = T.nextId ∧ T'.rows = T.rows ++ [tgt]

theorem granting_generateLoginTicket :
    Keeps (fun w => P w.grantingTickets) (generateLoginTicket c) := fun _ hw => hw

theorem granting_validateLoginTicket {ticket : Option String} :
    Keeps (fun w => P w.grantingTickets) (validateLoginTicket c ticket) := by
  refine Triple.bind Triple.read fun w => Keeps.bind ?_ fun _ => Keeps.pure
  cases ticket.bind (findLoginTicket w) with
  | none => exact Keeps.pure
  | some lt => exact fun _ hw => hw

theorem granting_generateServiceTicket {service : String} {username : Option String}
    {tgt : TicketGrantingTicket} :
    Keeps (fun w => P w.grantingTickets) (generateServiceTicket c service username tgt) := by
  cases username with
  | none => exact fun _ hw => hw
  | some username => exact fun _ hw => hw

/-- The rescue of an exception does not touch the ticket-granting tickets. -/
theorem granting_authenticatorFailed {e : Raised} :
    Keeps (fun w => P w.grantingTickets) (authenticatorFailed c e) := by
  unfold authenticatorFailed
  split
  · exact Keeps.bind granting_generateLoginTicket fun _ => Keeps.pure
  · exact Keeps.raise

/-- The answer to a login that is accepted, after its ticket has been granted. -/
theorem granting_answerLogin {username service : Option String} {lt : String}
    {tgt : TicketGrantingTicket} :
    Keeps (fun w => P w.grantingTickets) (match service with
      | none => pure (.page 200 (some .successLoggedIn) lt)
      | some service =>
        if isBlank service then pure (.page 200 (some .successLoggedIn) lt)
        else do
          let st ← generateServiceTicket c service username tgt
          redirectWithTicket c service st (pure (.page 200 (some .invalidTargetService) lt)) :
        Handler Response) := by
  split
  · exact Keeps.pure
  · refine Keeps.ite (fun _ => Keeps.pure) fun _ => ?_
    exact Keeps.bind granting_generateServiceTicket fun st => keeps_redirectWithTicket Keeps.pure

/-- An acceptance that is reached grants a ticket, if there is a username to save. -/
theorem granted_login {lt username : String}
    (hreached : Reached (c.request.results c.config))
    (husername : c.request.loginUsername c.config = some username) :
    Triple (fun w => w.grantingTickets = T) (login c lt) (fun _ w => OneMore T w.grantingTickets)
      (fun w => OneMore T w.grantingTickets) := by
  obtain ⟨extraAttributes, hfirst⟩ := reached_iff.mp hreached
  intro w hw
  have hrun := run_authenticate c (c.request.loginUsername c.config) c.request.password
    c.request.cleanService c.request.auth w
  rw [← Request.results, hfirst] at hrun
  have hgrant : Triple (fun v => v.grantingTickets = T)
      (generateTicketGrantingTicket c (c.request.loginUsername c.config) extraAttributes)
      (fun _ v => OneMore T v.grantingTickets) (fun v => OneMore T v.grantingTickets) := by
    rw [husername]
    rintro v rfl
    exact ⟨_, rfl, rfl⟩
  rw [login, run_bind_ok hrun]
  exact Triple.bind hgrant (fun tgt => granting_answerLogin) _ hw

/-- Otherwise no ticket is granted. -/
theorem kept_login {lt : String} (hnot : ¬ (Reached (c.request.results c.config) ∧
      (c.request.loginUsername c.config).isSome = true)) :
    Keeps (fun w => w.grantingTickets = T) (login c lt) := by
  intro w hw
  have hrun := run_authenticate c (c.request.loginUsername c.config) c.request.password
    c.request.cleanService c.request.auth w
  rw [← Request.results] at hrun
  rw [login]
  cases hfirst : firstAnswer (c.request.results c.config) with
  | none =>
    rw [hfirst] at hrun
    rw [run_bind_ok hrun]
    exact hw
  | some answer =>
    rw [hfirst] at hrun
    cases answer with
    | accepted extraAttributes =>
      have hnone : c.request.loginUsername c.config = none := by
        by_contra hsome
        exact hnot ⟨reached_iff.mpr ⟨_, hfirst⟩, Option.isSome_iff_ne_none.mpr hsome⟩
      rw [run_bind_ok hrun, hnone]
      exact hw
    | refused =>
      rw [run_bind_ok hrun]
      exact hw
    | raised e =>
      rw [run_bind_error hrun]
      exact hw

/-- A login whose login ticket is accepted leaves the ticket-granting tickets as its
authenticators decide. -/
theorem granting_postLogin {v : World} (hpasses : LoginPasses c v c.request.lt)
    (hlogin : ∀ lt, Triple (fun w => w.grantingTickets = v.grantingTickets) (login c lt)
      (fun _ w => P w.grantingTickets) fun w => P w.grantingTickets) :
    P (Eff.run (postLogin c) v).2.grantingTickets := by
  obtain ⟨w, hrun⟩ := hpasses
  have hkept : w.grantingTickets = v.grantingTickets := by
    have hvalidate := @granting_validateLoginTicket c (· = v.grantingTickets) c.request.lt v rfl
    rwa [hrun] at hvalidate
  rw [postLogin, run_bind_ok hrun]
  have hrest : Triple (fun w => w.grantingTickets = v.grantingTickets) (do
      let lt ← generateLoginTicket c
      Eff.rescue (login c lt) (authenticatorFailed c)) (fun _ w => P w.grantingTickets)
      fun w => P w.grantingTickets :=
    Triple.bind (M := fun _ (w : World) => w.grantingTickets = v.grantingTickets)
      (fun _ hw => hw) fun lt => Triple.rescue (hlogin lt) fun e => granting_authenticatorFailed
  exact Triple.state (I := fun w : World => P w.grantingTickets) hrest hkept

end Login

/-! ### Falling through -/

/-- The request adds a ticket-granting ticket. -/
def Grants (config : Config) (w : World) (r : Request) : Prop :=
  ∃ tgt ∈ (handle config w r).grantingTickets.rows, tgt ∉ w.grantingTickets.rows

section FallsThrough

variable {config : Config} {w : World} {r : Request}

/-- A ticket is granted exactly if an acceptance is reached and there is a username. -/
theorem grants_iff (hendpoint : r.endpoint = .postLogin)
    (hpasses : LoginPasses (contextOf config w r) w r.lt) :
    Grants config w r ↔
      Reached (r.results config) ∧ (r.loginUsername config).isSome = true := by
  have hrespond : respond (contextOf config w r) = postLogin (contextOf config w r) :=
    respond_postLogin hendpoint
  have hcounted : LoginPasses (contextOf config w r) { w with requests := w.requests + 1 }
      r.lt := by
    have hnone := loginPasses_iff.mp hpasses
    exact loginPasses_iff.mpr hnone
  have hstate : handle config w r =
      (Eff.run (postLogin (contextOf config w r)) { w with requests := w.requests + 1 }).2 := by
    rw [← hrespond]
    rfl
  rw [Grants, hstate]
  constructor
  · rintro ⟨tgt, htgt, hnew⟩
    by_contra hnot
    have hkept := granting_postLogin (P := (· = w.grantingTickets)) hcounted fun lt =>
      kept_login hnot
    rw [hkept] at htgt
    exact hnew htgt
  · rintro ⟨hreached, hsome⟩
    obtain ⟨username, husername⟩ := Option.isSome_iff_exists.mp hsome
    obtain ⟨tgt, hid, hrows⟩ := granting_postLogin (P := OneMore w.grantingTickets) hcounted
      fun lt => granted_login hreached husername
    refine ⟨tgt, ?_, fun hold => ?_⟩
    · rw [hrows]
      exact List.mem_append_right _ (List.mem_singleton_self _)
    · exact absurd hid (Nat.ne_of_lt (w.grantingTickets.fresh tgt hold))

/-- **Whether a ticket is granted is whether some authenticator accepts, exactly where an
acceptance is reached and a username given.**  An exception before it is not fallen through. -/
theorem fallsThrough_iff (hendpoint : r.endpoint = .postLogin)
    (hpasses : LoginPasses (contextOf config w r) w r.lt) :
    (Grants config w r ↔ Accepts (r.results config)) ↔
      (Accepts (r.results config) →
        Reached (r.results config) ∧ (r.loginUsername config).isSome = true) := by
  rw [grants_iff hendpoint hpasses]
  refine ⟨Iff.mpr, fun hreached => ⟨fun hgranted => hgranted.1.accepts, hreached⟩⟩

end FallsThrough

/-- The first authenticator cannot be reached, and the second accepts. -/
def directoryDown : Request :=
  { endpoint := .postLogin, now := 10, username := some "an", lt := some "LT-0",
    auth := [fun _ _ _ => .raised (.authenticatorError "LDAP authentication failed"),
      fun _ _ _ => .accepted []] }

/-- The state in which one login ticket has been issued. -/
def loginOffered : World := run plainConfig [{ endpoint := .postLoginTicket, now := 0 }]

/-- Nobody is logged in. -/
theorem not_granted_directoryDown :
    LoginPasses (contextOf plainConfig loginOffered directoryDown) loginOffered
        directoryDown.lt ∧
      Accepts (directoryDown.results plainConfig) ∧
      ¬ Grants plainConfig loginOffered directoryDown := by
  refine ⟨loginPasses_iff.mpr (by decide +kernel), ⟨[], by decide +kernel⟩, ?_⟩
  rintro ⟨tgt, htgt, -⟩
  have hnone : (handle plainConfig loginOffered directoryDown).grantingTickets.rows = [] := by
    decide +kernel
  rw [hnone] at htgt
  exact List.not_mem_nil htgt

/-- What the theorem says of this login. -/
theorem fallsThrough_directoryDown_iff :
    (Grants plainConfig loginOffered directoryDown ↔
        Accepts (directoryDown.results plainConfig)) ↔
      (Accepts (directoryDown.results plainConfig) →
        Reached (directoryDown.results plainConfig) ∧
          (directoryDown.loginUsername plainConfig).isSome = true) :=
  fallsThrough_iff rfl (loginPasses_iff.mpr (by decide +kernel))

end BkPlatform.Cas
