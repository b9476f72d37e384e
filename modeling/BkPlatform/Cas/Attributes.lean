import BkPlatform.Cas.Answers
import BkPlatform.Cas.Records

/-!
# Whose attributes a service reads

A login asks the authenticators in turn, and keeps the extra attributes of the first that accepts
in the ticket-granting ticket.  `/serviceValidate` and `/proxyValidate` look them up there, when
other requests have gone by: the username is in the row of the service ticket and the attributes
are in another, which is found by its key.  In every run they belong together.

## Main definitions

* `AcceptedFirst` — what the authenticators report on a login.
* `Request.Reports` — a login reports a user with attributes.
* `validationBody` — the document an answer is sent as.

## Main results

* `reported_run` — every ticket-granting ticket holds what a login reported.
* `reported_answer` — **the user and the attributes of an answer are those of one login.**
* `read_answer` — **and so are those a service reads in the document.**
-/

namespace BkPlatform.Cas

open Eff Log Relation

/-! ### What a login reports -/

/-- Every authenticator before the first that accepts refuses, and that one reports these
attributes. -/
def AcceptedFirst (auths : List Authenticator) (username password service : Option String)
    (extraAttributes : ExtraAttributes) : Prop :=
  ∃ before auth after, auths = before ++ auth :: after ∧
    (∀ a ∈ before, a username password service = .refused) ∧
    auth username password service = .accepted extraAttributes

theorem AcceptedFirst.exists_mem {auths : List Authenticator}
    {username password service : Option String} {x : ExtraAttributes}
    (h : AcceptedFirst auths username password service x) :
    ∃ auth ∈ auths, auth username password service = .accepted x := by
  obtain ⟨before, auth, after, rfl, -, haccepted⟩ := h
  exact ⟨auth, List.mem_append_right before List.mem_cons_self, haccepted⟩

/-- The request is a login of this user, for whom the authenticators report these attributes. -/
structure Request.Reports (config : Config) (q : Request) (username : String)
    (extraAttributes : ExtraAttributes) : Prop where
  endpoint : q.endpoint = .postLogin
  loginUsername : q.loginUsername config = some username
  accepted : AcceptedFirst q.auth (some username) q.password q.cleanService extraAttributes

/-- Every ticket-granting ticket there has been holds what one of the requests reported. -/
def World.Reported (config : Config) (rs : List Request) (w : World) : Prop :=
  ∀ tgt ∈ tickets Event.grantedTicket w.history,
    ∃ q ∈ rs, q.Reports config tgt.username tgt.extraAttributes

section Requests

variable {config : Config} {rs : List Request} {w w' : World} {c : Context}

/-- It is a matter of the tickets that are granted. -/
theorem World.Reported.of_tickets (h : w.Reported config rs)
    (hsame : tickets Event.grantedTicket w'.history = tickets Event.grantedTicket w.history) :
    w'.Reported config rs := by
  intro tgt htgt
  rw [hsame] at htgt
  exact h tgt htgt

theorem World.Reported.mono (h : w.Reported config rs) {rs' : List Request} (hrs : rs ⊆ rs') :
    w.Reported config rs' := fun tgt htgt =>
  let ⟨q, hq, hreports⟩ := h tgt htgt
  ⟨q, hrs hq, hreports⟩

/-- An event that grants no ticket. -/
theorem World.Reported.log (h : w.Reported config rs) {e : Event} (he : e.grantedTicket = none) :
    World.Reported config rs { w with history := c.log w e } :=
  h.of_tickets (tickets_snoc_none he)

/-- Only a login grants a ticket. -/
theorem World.Reported.change (h : w.Reported config rs) (hchange : Change c w w')
    (hendpoint : c.request.endpoint ≠ .postLogin) : w'.Reported config rs := by
  refine h.of_tickets ?_
  cases hchange with
  | draw | setLoginTickets | consume | destroyServiceTicket | destroyProxyGrantingTickets => rfl
  | authenticate hlogin | grant hlogin => exact absurd hlogin hendpoint
  | issue | issueProxy | grantProxy | validate | destroy => exact tickets_snoc_none rfl

/-- The authenticators are asked up to the first that accepts. -/
theorem reported_authenticate {username password service : Option String}
    (auths : List Authenticator) :
    Triple (World.Reported config rs) (authenticate c username password service auths)
      (fun a w => w.Reported config rs ∧ ∀ extraAttributes, a = some extraAttributes →
        AcceptedFirst auths username password service extraAttributes)
      (World.Reported config rs) := by
  induction auths with
  | nil => exact Triple.pure fun w hw => ⟨hw, fun _ heq => by cases heq⟩
  | cons auth rest ih =>
    rw [authenticate]
    split
    · next extraAttributes haccepted =>
      refine Triple.bind (M := fun _ => World.Reported config rs)
        (Triple.modify fun w hw => hw.log rfl) fun _ => Triple.pure fun w hw => ⟨hw, ?_⟩
      intro x hx
      obtain rfl := Option.some.inj hx
      exact ⟨[], auth, rest, rfl, by simp, haccepted⟩
    · next hrefused =>
      refine ih.post fun a w hw => ⟨hw.1, fun x hx => ?_⟩
      obtain ⟨before, first, after, hsplit, hbefore, haccepted⟩ := hw.2 x hx
      refine ⟨auth :: before, first, after, by rw [hsplit]; rfl, fun a ha => ?_, haccepted⟩
      rcases List.mem_cons.mp ha with rfl | hold
      · exact hrefused
      · exact hbefore a hold
    · exact Triple.raise fun _ hw => hw

/-- The ticket that is granted holds what the login reports. -/
theorem reported_generateTicketGrantingTicket {username : Option String}
    {extraAttributes : ExtraAttributes}
    (hreports : ∀ u, username = some u → ∃ q ∈ rs, q.Reports config u extraAttributes) :
    Keeps (World.Reported config rs) (generateTicketGrantingTicket c username extraAttributes) := by
  cases username with
  | none => exact fun _ hw => hw
  | some username =>
    intro w hw tgt htgt
    have hgranted : ∀ row, tickets Event.grantedTicket (c.log w (.granted row)) =
        tickets Event.grantedTicket w.history ++ [row] := fun row => tickets_snoc_some rfl
    have hmem : tgt ∈ tickets Event.grantedTicket w.history ++ [c.grantingTicket
        ("TGC-" ++ c.config.random w.drawn) username extraAttributes w.grantingTickets.nextId] := by
      rw [← hgranted]
      exact htgt
    rcases List.mem_append.mp hmem with hold | hnew
    · exact hw tgt hold
    · rw [List.mem_singleton.mp hnew]
      exact hreports username rfl

theorem reported_generateServiceTicket {service : String} {username : Option String}
    {tgt : TicketGrantingTicket} :
    Keeps (World.Reported config rs) (generateServiceTicket c service username tgt) := by
  cases username with
  | none => exact fun _ hw => hw
  | some username => exact fun w hw => hw.of_tickets (tickets_snoc_none rfl)

theorem reported_generateLoginTicket :
    Keeps (World.Reported config rs) (generateLoginTicket c) := fun _ hw => hw

theorem reported_validateLoginTicket {ticket : Option String} :
    Keeps (World.Reported config rs) (validateLoginTicket c ticket) := by
  apply Triple.bind Triple.read
  intro w
  refine Keeps.bind ?_ fun _ => Keeps.pure
  cases ticket.bind (findLoginTicket w) with
  | none => exact Keeps.pure
  | some lt => exact Triple.modify fun _ hw => hw

theorem reported_login {lt : String} (hrequest : c.request ∈ rs)
    (hendpoint : c.request.endpoint = .postLogin) :
    Keeps (World.Reported c.config rs) (login c lt) := by
  apply Triple.bind (reported_authenticate c.request.auth)
  intro credentials
  cases credentials with
  | none => exact Triple.pure fun _ hw => hw.1
  | some extraAttributes =>
    rintro w ⟨hw, haccepted⟩
    refine Keeps.bind (reported_generateTicketGrantingTicket fun u hu => ?_) (fun tgt => ?_) w hw
    · have hfirst := haccepted extraAttributes rfl
      rw [hu] at hfirst
      exact ⟨c.request, hrequest, hendpoint, hu, hfirst⟩
    · split
      · exact Keeps.pure
      · refine Keeps.ite (fun _ => Keeps.pure) fun _ => ?_
        exact Keeps.bind reported_generateServiceTicket fun st =>
          keeps_redirectWithTicket Keeps.pure

theorem reported_postLogin (hrequest : c.request ∈ rs)
    (hendpoint : c.request.endpoint = .postLogin) :
    Keeps (World.Reported c.config rs) (postLogin c) := by
  apply Keeps.bind reported_validateLoginTicket
  intro error
  apply Keeps.bind reported_generateLoginTicket
  intro lt
  cases error with
  | some message => exact Keeps.pure
  | none =>
    apply Triple.rescue (reported_login hrequest hendpoint)
    intro e
    unfold authenticatorFailed
    split
    · exact Keeps.bind reported_generateLoginTicket fun _ => Keeps.pure
    · exact Keeps.raise

/-- **Every route keeps it.** -/
theorem reported_respond (hrequest : c.request ∈ rs) :
    Keeps (World.Reported c.config rs) (respond c) := by
  by_cases hendpoint : c.request.endpoint = .postLogin
  · rw [respond_postLogin hendpoint]
    exact reported_postLogin hrequest hendpoint
  · exact Keeps.of_steps (fun _ => changes_respond) fun _ _ hchange h => h.change hchange hendpoint

/-- **In every run a ticket-granting ticket holds what a login reported.** -/
theorem reported_run (config : Config) (rs : List Request) :
    (run config rs).Reported config rs := by
  induction rs using List.reverseRecOn with
  | nil => exact fun tgt htgt => absurd htgt List.not_mem_nil
  | append_singleton rs r ih =>
    have hstep : Keeps (World.Reported config (rs ++ [r]))
        (respond (contextOf config (run config rs) r)) :=
      reported_respond (c := contextOf config (run config rs) r)
        (List.mem_append_right rs (List.mem_singleton_self r))
    have hbefore := ih.mono (List.subset_append_left rs [r])
    rw [run, List.foldl_append]
    exact hstep.state hbefore

/-! ### What an answer reports -/

/-- What is known of a ticket that has been accepted. -/
structure Vouched (config : Config) (rs : List Request) (st : SPTicket) (w : World) : Prop where
  kept : w.Kept config
  reported : w.Reported config rs
  accounted : Accounted config w.history st

variable {st : SPTicket}

theorem Vouched.change (h : Vouched c.config rs st w) (hchange : Change c w w')
    (hendpoint : c.request.endpoint ≠ .postLogin) : Vouched c.config rs st w' where
  kept := h.kept.change hchange
  reported := h.reported.change hchange hendpoint
  accounted := by
    obtain ⟨more, hmore⟩ := history_change hchange
    rw [hmore]
    exact h.accounted.append more

/-- A row is found by its key, and is the one the ticket was issued from. -/
theorem Vouched.reports (h : Vouched config rs st w) {tgt : TicketGrantingTicket}
    (htgt : grantedByTgt w st = some tgt) :
    ∃ q ∈ rs, q.Reports config st.username tgt.extraAttributes := by
  obtain ⟨tgt', ⟨n, r, -, -, -, hgranted⟩, husername, hid, -⟩ := h.accounted
  have hrow : tgt ∈ tickets Event.grantedTicket w.history :=
    h.kept.recorded.granted.rows tgt (List.mem_of_find?_eq_some htgt)
  have hfound : some tgt.id = st.grantedByTgtId := by simpa using List.find?_some htgt
  have hkey : tgt.id = tgt'.id := Option.some.inj (hfound.trans hid)
  obtain rfl := h.kept.recorded.granted.numbered.eq_of_key hrow
    (mem_grantedTickets.mpr ⟨n, r, hgranted⟩) hkey
  rw [husername]
  exact h.reported tgt hrow

theorem reports_extraAttributesOf :
    Triple (Vouched config rs st) (extraAttributesOf st)
      (fun extraAttributes _ => ∃ q ∈ rs, q.Reports config st.username extraAttributes)
      (fun _ => True) := by
  apply Triple.bind Triple.get
  intro w
  split
  · next tgt _ htgt =>
    refine Triple.pure ?_
    rintro w' ⟨hw, rfl⟩
    exact hw.reports htgt
  · exact Triple.raise fun _ _ => trivial

/-- If the answer reports a user, it does so with attributes, and so did a login. -/
def Response.Reported (config : Config) (rs : List Request) (response : Response) : Prop :=
  ∀ username attributes pgtiou proxies,
    response = .success username attributes pgtiou proxies →
      ∃ x, attributes = some x ∧ ∃ q ∈ rs, q.Reports config username x

theorem reported_refuse {error : Error} : (refuse error).Reported config rs :=
  fun _ _ _ _ heq => by cases heq

/-- The end of either route. -/
theorem reported_success {pgtiou : Option String} {proxies : List String} :
    Triple (Vouched config rs st)
      (extraAttributesOf st >>= fun extraAttributes =>
        pure (Response.success st.username (some extraAttributes) pgtiou proxies))
      (fun response _ => response.Reported config rs) (fun _ => True) := by
  refine Triple.bind reports_extraAttributesOf fun extraAttributes => Triple.pure fun _ hw => ?_
  intro username x g ps heq
  obtain ⟨rfl, hx, -, -⟩ := Response.success.inj heq
  exact ⟨extraAttributes, hx.symm, hw⟩

/-- What a validator makes known of the ticket it returns. -/
theorem vouched_of_steps {x : Handler (Option SPTicket × Option Error)}
    (hendpoint : c.request.endpoint ≠ .postLogin)
    (hx : ∀ w₀, Triple (ReflTransGen (Change c) w₀) x
      (fun a w => ReflTransGen (Change c) w₀ w ∧ ∀ st, a = (some st, none) → c.Accepts w st)
      (ReflTransGen (Change c) w₀)) :
    Triple (fun w => w.Kept c.config ∧ w.Reported c.config rs) x
      (fun a w => ∀ st, a = (some st, none) → Vouched c.config rs st w ∧ c.Accepts w st)
      (fun _ => True) := by
  have hsteps := Triple.of_steps (R := Change c) (P := fun _ => True)
    (I := fun w => w.Kept c.config ∧ w.Reported c.config rs)
    (fun w₀ => (hx w₀).pre fun _ hw => hw.1)
    fun _ _ hchange h => ⟨h.1.change hchange, h.2.change hchange hendpoint⟩
  refine hsteps.weaken (fun _ hw => ⟨hw, trivial⟩) ?_ fun _ _ => trivial
  rintro a w ⟨⟨hkept, hreported⟩, hall⟩ st heq
  have haccepts := hall st heq
  exact ⟨⟨hkept, hreported, hkept.sound.issued st haccepts.row⟩, haccepts⟩

theorem vouched_grantProxy (hendpoint : c.request.endpoint ≠ .postLogin) :
    Triple (fun w => Vouched c.config rs st w ∧ c.Accepts w st) (grantProxy c st)
      (fun _ => Vouched c.config rs st) (fun _ => True) := by
  have hsteps := Triple.of_steps (R := Change c) (P := fun w => c.Accepts w st)
    (I := Vouched c.config rs st) (x := grantProxy c st)
    (fun _ => changes_grantProxy.post fun _ _ hw => ⟨hw, trivial⟩)
    fun _ _ hchange h => h.change hchange hendpoint
  exact hsteps.weaken (fun _ hw => hw) (fun _ _ hw => hw.1) fun _ _ => trivial

theorem reported_serviceValidate (hendpoint : c.request.endpoint ≠ .postLogin) :
    Triple (fun w => w.Kept c.config ∧ w.Reported c.config rs) (serviceValidate c)
      (fun response _ => response.Reported c.config rs) (fun _ => True) := by
  refine Triple.ite (fun _ => ?_) fun _ => Triple.pure fun _ _ => reported_refuse
  refine Triple.bind (vouched_of_steps hendpoint fun _ => changes_validateServiceTicket.post
    fun _ _ hw => ⟨hw.1, fun st heq => (hw.2 st heq).2⟩) ?_
  rintro ⟨st, error⟩
  cases st <;> cases error
  · exact Triple.raise fun _ _ => trivial
  · exact Triple.pure fun _ _ => reported_refuse
  · refine Triple.bind ((vouched_grantProxy hendpoint).pre fun w hw => hw _ rfl) fun pgtiou => ?_
    exact reported_success
  · exact Triple.pure fun _ _ => reported_refuse

theorem reported_proxyValidate (hendpoint : c.request.endpoint ≠ .postLogin) :
    Triple (fun w => w.Kept c.config ∧ w.Reported c.config rs) (proxyValidate c)
      (fun response _ => response.Reported c.config rs) (fun _ => True) := by
  refine Triple.ite (fun _ => ?_) fun _ => Triple.pure fun _ _ => reported_refuse
  refine Triple.bind (vouched_of_steps hendpoint fun _ => changes_validateProxyTicket) ?_
  rintro ⟨t, error⟩
  cases t <;> cases error
  · exact Triple.raise fun _ _ => trivial
  · exact Triple.pure fun _ _ => reported_refuse
  · refine Triple.bind (triple_proxiesOf fun _ _ => trivial) fun proxies => ?_
    refine Triple.bind ((vouched_grantProxy hendpoint).pre fun w hw => hw _ rfl) fun pgtiou => ?_
    exact reported_success
  · exact Triple.pure fun _ _ => reported_refuse

end Requests

/-! ### What a service reads -/

/-- The document `/serviceValidate` and `/proxyValidate` answer with. -/
def validationBody (m : Markup) : Response → Option (List Char)
  | .success username extraAttributes pgtiou proxies =>
    some (proxyValidateBody m
      { username, extraAttributes := extraAttributes.map (List.map fun a => (a.1, .string a.2)),
        pgtiou, proxies })
  | .failure _ error => some (failureBody m "cas:authenticationFailure" error)
  | _ => none

/-- What a service reads for attributes that are strings. -/
def shownAttributes (m : Markup) (x : ExtraAttributes) : List (List Char × List Char) :=
  x.map fun a => ((namespaceAwareKey a.1).toList, m.shown a.2.toList)

/-- The attributes as they were reported, under the keys of the document. -/
def namespaced (x : ExtraAttributes) : List (List Char × List Char) :=
  x.map fun a => ((namespaceAwareKey a.1).toList, a.2.toList)

/-- Plain attributes are read as they were reported. -/
theorem shownAttributes_plain {m : Markup} {x : ExtraAttributes}
    (h : ∀ a ∈ x, a.2.toList.all isPlain = true) : shownAttributes m x = namespaced x := by
  refine List.map_congr_left fun a ha => ?_
  rw [m.shown_plain (h a ha)]

theorem eq_shownAttributes {m : Markup} {x : ExtraAttributes} {l : List (List Char × List Char)}
    (h : List.Forall₂ (SeenAttribute m) (x.map fun a => (a.1, .string a.2)) l) :
    l = shownAttributes m x := by
  induction x generalizing l with
  | nil =>
    cases h
    rfl
  | cons a x ih =>
    cases h with
    | @cons _ b _ l hb hl =>
      obtain ⟨key, value⟩ := b
      obtain ⟨rfl, hvalue⟩ := hb
      cases hvalue
      rw [ih hl]
      rfl

section Answers

variable {config : Config} {rs : List Request} {r : Request} {response : Response}

/-- The answers of the two routes report what a login did. -/
theorem reported_answer (hendpoint : r.endpoint = .serviceValidate ∨ r.endpoint = .proxyValidate)
    (h : answer config (run config rs) r = .ok response) : response.Reported config rs := by
  let c := contextOf config (run config rs) r
  have hroute : Triple (fun w => w.Kept config ∧ w.Reported config rs) (respond c)
      (fun response _ => response.Reported config rs) (fun _ => True) := by
    rcases hendpoint with hendpoint | hendpoint
    · have hrespond : respond c = serviceValidate c := by
        simp only [respond, c, contextOf, hendpoint]
      have hother : c.request.endpoint ≠ .postLogin := by simp [c, contextOf, hendpoint]
      rw [hrespond]
      exact reported_serviceValidate hother
    · have hrespond : respond c = proxyValidate c := by
        simp only [respond, c, contextOf, hendpoint]
      have hother : c.request.endpoint ≠ .postLogin := by simp [c, contextOf, hendpoint]
      rw [hrespond]
      exact reported_proxyValidate hother
  have hstart := And.intro ((kept_run config rs).count ((run config rs).requests + 1))
    (reported_run config rs)
  exact hroute.returned hstart h

/-- **What a service reads in the document is what one login was about.**  If it reads a user, a
`POST /login` of the run was a login of a user that is shown as this one, and the authenticators
reported attributes that are shown as those it reads.  What is plain is shown as it is. -/
theorem read_answer (m : Markup)
    (hendpoint : r.endpoint = .serviceValidate ∨ r.endpoint = .proxyValidate)
    (hkeys : ∀ q ∈ rs, ∀ username x, q.Reports config username x →
      ∀ a ∈ x, a.1.toList.all Xml.isNameChar = true)
    (h : answer config (run config rs) r = .ok response) {body : List Char}
    (hbody : validationBody m response = some body) {user : List Char}
    {attributes : Option (List (List Char × List Char))} {pgtiou : Option (List Char)}
    {proxies : List (List Char)}
    (hread : readAnswer body = some (.success user attributes pgtiou proxies)) :
    ∃ q ∈ rs, ∃ username x, q.Reports config username x ∧ user = m.shown username.toList ∧
      attributes = some (shownAttributes m x) ∧
      (username.toList.all isPlain = true → user = username.toList) ∧
      ((∀ a ∈ x, a.2.toList.all isPlain = true) → attributes = some (namespaced x)) := by
  have hreported := reported_answer hendpoint h
  cases response with
  | failure status error =>
    -- whatever the message quotes, it is read as a failure
    obtain rfl := Option.some.inj hbody
    rw [readAnswer_failure] at hread
    cases hread
  | success username extraAttributes g ps =>
    obtain rfl := Option.some.inj hbody
    obtain ⟨x, rfl, q, hq, hx⟩ := hreported _ _ _ _ rfl
    have hwritable : Writable (x.map fun a => (a.1, AttributeValue.string a.2)) := by
      intro a ha
      obtain ⟨b, hb, rfl⟩ := List.mem_map.mp ha
      exact ⟨hkeys q hq username x hx b hb, fun _ heq => by cases heq⟩
    let success : Success :=
      { username, extraAttributes := some (x.map fun a => (a.1, .string a.2)), pgtiou := g,
        proxies := ps }
    obtain ⟨seen, hseen, hsuccess⟩ : ∃ seen, Option.Rel (List.Forall₂ (SeenAttribute m))
        success.extraAttributes seen ∧ _ := readAnswer_shown m hwritable
    cases hseen with
    | some hseen =>
      obtain ⟨rfl, hattributes, -, -⟩ := Reading.success.inj
        (Option.some.inj (hread.symm.trans hsuccess))
      rw [hattributes, eq_shownAttributes hseen]
      exact ⟨q, hq, username, x, hx, rfl, rfl, m.shown_plain,
        fun hplain => congrArg some (shownAttributes_plain hplain)⟩
  | page | loginTicket | redirect | proxySuccess => cases hbody

end Answers

/-! ### A login with an attribute -/

/-- A login whose first authenticator refuses and whose second reports an attribute. -/
def attributesLogin : List Request :=
  [{ endpoint := .postLoginTicket, now := 0 },
   { endpoint := .postLogin, now := 10, service := some "http://app.example",
     username := some "an", lt := some "LT-0",
     auth := [fun _ _ _ => .refused, fun _ _ _ => .accepted [("mail", "<an@app>")]] }]

/-- The application asks for the ticket. -/
def asksForUser : Request :=
  { endpoint := .serviceValidate, now := 20, service := some "http://app.example",
    ticket := some "ST-3" }

/-- What it is answered with. -/
def attributesAnswer : Response := .success "an" (some [("mail", "<an@app>")]) none []

theorem read_answer_attributes :
    ∃ q ∈ attributesLogin, ∃ username x, q.Reports plainConfig username x ∧
      "an".toList = plainMarkup.shown username.toList ∧
      some [("cas:mail".toList, "<an@app>".toList)] = some (shownAttributes plainMarkup x) ∧
      (username.toList.all isPlain = true → "an".toList = username.toList) ∧
      ((∀ a ∈ x, a.2.toList.all isPlain = true) →
        some [("cas:mail".toList, "<an@app>".toList)] = some (namespaced x)) := by
  have hbody : validationBody plainMarkup attributesAnswer = some (proxyValidateBody plainMarkup
      ⟨"an", some [("mail", .string "<an@app>")], none, []⟩) := rfl
  have hanswer : answer plainConfig (run plainConfig attributesLogin) asksForUser =
      .ok attributesAnswer := by decide +kernel
  have hread : readAnswer (proxyValidateBody plainMarkup
      ⟨"an", some [("mail", .string "<an@app>")], none, []⟩) =
      some (.success "an".toList (some [("cas:mail".toList, "<an@app>".toList)]) none []) := by
    decide +kernel
  refine read_answer plainMarkup (Or.inl rfl) (fun q hq username x hx a ha => ?_) hanswer hbody
    hread
  obtain ⟨auth, hauth, haccepted⟩ := hx.accepted.exists_mem
  simp only [attributesLogin, List.mem_cons, List.not_mem_nil, or_false] at hq
  rcases hq with rfl | rfl
  · cases hauth
  · simp only [List.mem_cons, List.not_mem_nil, or_false] at hauth
    rcases hauth with rfl | rfl
    · cases haccepted
    · rw [← AuthResult.accepted.inj haccepted, List.mem_singleton] at ha
      subst ha
      decide +kernel

end BkPlatform.Cas
