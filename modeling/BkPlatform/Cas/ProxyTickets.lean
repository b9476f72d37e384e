import BkPlatform.Cas.Records

/-!
# Proxy tickets are never accepted

`/proxy` issues proxy tickets, and `/proxyValidate` looks for the ticket it is
given with the finder of `ServiceTicket`.  A `ProxyTicket` is a sibling of that
class and not a descendant, so the finder passes over its row, and every proxy
ticket is answered as one that is not recognised.  The branches for proxy
tickets in the validators and in the response are never reached.

## Main definitions

* `Presentation` — a proxy ticket comes to `/proxyValidate` as it should.
* `EndToEnd` — the answer it should get.

## Main results

* `findServiceTicket_proxyTicket` — the finder does not find it.
* `proxyTicket_refused` — **no presentation gets that answer.**
-/

namespace BkPlatform.Cas

open Eff Log

/-! ### Statements -/

/-- After the requests `rs`, in which `/proxy` has issued `pt`, and the requests `between`,
in which nobody logs out or presents it, `r` presents `pt` for its service, in time and from
an allowed address. -/
structure Presentation (config : Config) (rs between : List Request) (r : Request)
    (pt : SPTicket) : Prop where
  issued : ∃ e ∈ (run config rs).history, e.request.endpoint = .proxy ∧ e.event = .issued pt
  noLogout : ∀ q ∈ between, q.endpoint ≠ .logout
  first : ∀ q ∈ between, q.endpoint = .proxyValidate → q.ticket ≠ some pt.ticket
  endpoint : r.endpoint = .proxyValidate
  allowed : r.ipAllowed = true
  ticket : r.ticket = some pt.ticket
  service : r.service = some pt.service
  inTime : r.now - pt.createdOn ≤ config.maximumUnusedServiceTicketLifetime

/-- The request succeeds, and reports the user of the login that `pt` goes back to. -/
def EndToEnd (config : Config) (w : World) (r : Request) (pt : SPTicket) : Prop :=
  ∃ tgt extraAttributes pgtiou proxies,
    LoggedIn config w.history tgt ∧ pt.grantedByTgtId = some tgt.id ∧
      answer config w r = .ok (.success tgt.username extraAttributes pgtiou proxies)

/-- The answer to a ticket that is not found. -/
def notRecognized (ticket : String) : Response :=
  refuse ⟨.invalidTicket, "Ticket '" ++ ticket ++ "' not recognized."⟩

/-! ### The finder -/

theorem run_append (config : Config) (rs more : List Request) :
    run config (rs ++ more) = more.foldl (handle config) (run config rs) := by
  rw [run, run, List.foldl_append]

/-- The names of the two kinds of tickets are different. -/
theorem initials_ne (a b : String) :
    TicketType.initials .serviceTicket ++ a ≠ TicketType.initials .proxyTicket ++ b := by
  intro h
  have hlist := congrArg String.toList h
  simp [TicketType.initials] at hlist

/-- A ticket issued by `/proxy` has the name of a proxy ticket. -/
theorem named_proxyTicket {config : Config} {rs : List Request} {e : Entry} {pt : SPTicket}
    (he : e ∈ (run config rs).history) (hendpoint : e.request.endpoint = .proxy)
    (hissued : e.event = .issued pt) :
    ∃ random, pt.ticket = TicketType.initials .proxyTicket ++ random := by
  obtain ⟨before, after, hhistory⟩ := List.append_of_mem he
  have horiginates := originates_run config rs before e after hhistory
  obtain ⟨random, hnamed⟩ := horiginates.named pt hissued
  have htype : pt.type = .proxyTicket := by
    cases horiginates.issued pt hissued with
    | login hlogin => rw [hendpoint] at hlogin; cases hlogin
    | cookie hcookie => rw [hendpoint] at hcookie; cases hcookie
    | proxy _ htype => exact htype
  rw [htype] at hnamed
  exact ⟨random, hnamed⟩

/-- **The finder does not find a proxy ticket.**  Whatever row has its name is not of the
type it looks at. -/
theorem findServiceTicket_proxyTicket {config : Config} {rs : List Request} {e : Entry}
    {pt : SPTicket} (he : e ∈ (run config rs).history) (hendpoint : e.request.endpoint = .proxy)
    (hissued : e.event = .issued pt) : findServiceTicket (run config rs) pt.ticket = none := by
  obtain ⟨random, hpt⟩ := named_proxyTicket he hendpoint hissued
  refine List.find?_eq_none.mpr fun st hst hnamed => ?_
  rw [SPTicket.isNamed, Bool.and_eq_true, beq_iff_eq, beq_iff_eq] at hnamed
  obtain ⟨htype, hticket⟩ := hnamed
  -- the row was issued once, and named by its type then
  obtain ⟨n, q, hrow⟩ := mem_issuedTickets.mp ((recorded_run config rs).issued.rows st hst)
  obtain ⟨before, after, hhistory⟩ := List.append_of_mem hrow
  have horiginates := originates_run config rs before _ after hhistory
  obtain ⟨random', hst'⟩ := horiginates.named st.asIssued rfl
  have hname : st.ticket = TicketType.initials .serviceTicket ++ random' := by
    rw [← htype]
    exact hst'
  exact initials_ne random' random (hname.symm.trans (hticket.trans hpt))

/-! ### The endpoint -/

/-- A ticket that is not found is not recognised, and nothing changes. -/
theorem run_validateServiceTicket_of_not_found (c : Context) {w : World} {service ticket : String}
    {allowProxyTickets : Bool} (hfind : findServiceTicket w ticket = none) :
    Eff.run (validateServiceTicket c (some service) (some ticket) allowProxyTickets) w =
      (.ok (none, some ⟨.invalidTicket, "Ticket '" ++ ticket ++ "' not recognized."⟩), w) := by
  have hfound : ticketFound w (some service) (some ticket) = none := hfind
  rw [validateServiceTicket, run_bind_ok (run_get w), hfound]
  rfl

/-- What `/proxyValidate` answers where the finder finds nothing. -/
theorem answer_notRecognized {config : Config} {w : World} {r : Request} {service ticket : String}
    (hendpoint : r.endpoint = .proxyValidate) (hallowed : r.ipAllowed = true)
    (hservice : r.service = some service) (hticket : r.ticket = some ticket)
    (hfind : findServiceTicket w ticket = none) :
    answer config w r = .ok (notRecognized ticket) := by
  have hclean : r.cleanService = some (cleanServiceUrl service) := by
    rw [Request.cleanService, hservice, Option.map_some]
  have hfind' : findServiceTicket { w with requests := w.requests + 1 } ticket = none := hfind
  have hvalidate := @run_validateServiceTicket_of_not_found (contextOf config w r) _
    (cleanServiceUrl service) _ true hfind'
  rw [contextOf] at hvalidate
  simp only [answer, respond, hendpoint, proxyValidate, hallowed, if_true, validateProxyTicket,
    hclean, hticket]
  rw [run_bind, run_bind, hvalidate]
  rfl

/-- **Proxy tickets do not work end to end.**  The first presentation of a proxy ticket, for
its service, in time and from an allowed address, is answered as that of an unknown ticket. -/
theorem proxyTicket_refused {config : Config} {rs between : List Request} {r : Request}
    {pt : SPTicket} (h : Presentation config rs between r pt) :
    answer config (run config (rs ++ between)) r = .ok (notRecognized pt.ticket) ∧
      ¬ EndToEnd config (run config (rs ++ between)) r pt := by
  obtain ⟨e, he, hproxy, hissued⟩ := h.issued
  have he' : e ∈ (run config (rs ++ between)).history := by
    obtain ⟨more, hmore⟩ := history_foldl config (run config rs) between
    rw [run_append, hmore]
    exact List.mem_append_left _ he
  have hanswer : answer config (run config (rs ++ between)) r = .ok (notRecognized pt.ticket) :=
    answer_notRecognized h.endpoint h.allowed h.service h.ticket
      (findServiceTicket_proxyTicket he' hproxy hissued)
  refine ⟨hanswer, ?_⟩
  rintro ⟨tgt, extraAttributes, pgtiou, proxies, -, -, hsuccess⟩
  rw [hanswer] at hsuccess
  cases hsuccess

/-! ### A proxy ticket -/

/-- A login, whose service asks for a proxy-granting ticket and then for a proxy ticket. -/
def oneProxy : List Request :=
  [{ endpoint := .postLoginTicket, now := 0 },
   { endpoint := .postLogin, now := 10, service := some "http://app.example",
     username := some "an", lt := some "LT-0", auth := [fun _ _ _ => .accepted []] },
   { endpoint := .serviceValidate, now := 20, service := some "http://app.example",
     ticket := some "ST-3", pgtUrl := some "https://app.example/callback" },
   { endpoint := .proxy, now := 30, pgt := some "PGT-4",
     targetService := some "http://mail.example" }]

/-- The proxy ticket it ends with. -/
def lastProxyTicket : SPTicket where
  id := 2
  ticket := "PT-6"
  service := "http://mail.example"
  createdOn := 30
  consumed := none
  clientHostname := "127.0.0.1"
  username := "an"
  type := .proxyTicket
  grantedByPgtId := some 1
  grantedByTgtId := some 1

/-- The service it was issued for presents it at once. -/
def presentIt : Request :=
  { endpoint := .proxyValidate, now := 31, service := some "http://mail.example",
    ticket := some "PT-6" }

theorem presentation_oneProxy : Presentation plainConfig oneProxy [] presentIt lastProxyTicket where
  issued := by decide +kernel
  noLogout := by simp
  first := by simp
  endpoint := rfl
  allowed := rfl
  ticket := rfl
  service := rfl
  inTime := by decide

/-- The proxy ticket has been issued, and is refused the first time it is presented. -/
theorem not_endToEnd_oneProxy :
    Presentation plainConfig oneProxy [] presentIt lastProxyTicket ∧
      ¬ EndToEnd plainConfig (run plainConfig oneProxy) presentIt lastProxyTicket := by
  refine ⟨presentation_oneProxy, ?_⟩
  rintro ⟨tgt, extraAttributes, pgtiou, proxies, -, -, hsuccess⟩
  have hanswer : answer plainConfig (run plainConfig oneProxy) presentIt =
      .ok (notRecognized "PT-6") := by decide +kernel
  rw [hanswer] at hsuccess
  cases hsuccess

/-- And so says the theorem. -/
theorem proxyTicket_refused_oneProxy :
    answer plainConfig (run plainConfig (oneProxy ++ [])) presentIt =
      .ok (notRecognized lastProxyTicket.ticket) :=
  (proxyTicket_refused presentation_oneProxy).1

end BkPlatform.Cas
