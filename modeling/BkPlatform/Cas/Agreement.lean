import BkPlatform.Cas.Burning

/-!
# The two endpoints that validate service tickets

`/validate` looks at the row of the ticket alone.  `/serviceValidate` also follows it
to its ticket-granting ticket, for the extra attributes of the user; that row may
have gone, when the session was found to be over by `GET /login`, and a ticket
issued shortly before is then good at one endpoint and an exception at the other.

## Main definitions

* `Agree config w r` — the two endpoints give the same verdict on the request.
* `Validates config w r st` — the request presents the ticket, and it is good.

## Main results

* `agree_iff` — **the endpoints agree iff the ticket-granting ticket of the ticket that is
  presented is still there.**
* `granted_or_destroyed` — where it is not, the history tells when it was destroyed.
-/

namespace BkPlatform.Cas

open Eff

/-! ### The verdicts -/

/-- The same verdict at both endpoints: the same username, or the same refusal. -/
inductive Agree (config : Config) (w : World) (r : Request) : Prop
  | success {username : String} {extraAttributes : ExtraAttributes}
      (hvalidate : answer config w { r with endpoint := .validate } =
        .ok (.success username none none []))
      (hserviceValidate : answer config w { r with endpoint := .serviceValidate } =
        .ok (.success username (some extraAttributes) none []))
  | failure {error : Error}
      (hvalidate : answer config w { r with endpoint := .validate } = .ok (refuse error))
      (hserviceValidate : answer config w { r with endpoint := .serviceValidate } =
        .ok (refuse error))

/-- The request presents this ticket, which is unused, young enough and one for its service. -/
structure Validates (config : Config) (w : World) (r : Request) (st : SPTicket) : Prop where
  found : ∃ ticket, r.ticket = some ticket ∧ findServiceTicket w ticket = some st
  unused : isConsumed st = false
  inTime : r.now - st.createdOn ≤ config.maximumUnusedServiceTicketLifetime
  service : ∃ service, r.cleanService = some service ∧ st.matchesService service = true

section Verdicts

variable {config : Config} {w : World} {r : Request} {st : SPTicket}

/-- A ticket is good exactly if the test of the validators returns no error for it. -/
theorem validates_iff : Validates config w r st ↔
    ticketFound w r.cleanService r.ticket = some st ∧
      serviceTicketError config r.now r.cleanService r.ticket (some st) false = none := by
  rw [serviceTicketError_eq_none]
  constructor
  · rintro ⟨⟨ticket, hticket, hfind⟩, hunused, hage, service, hservice, hmatches⟩
    have htype : st.type = .serviceTicket := by
      have hnamed : st.isNamed ticket = true := List.find?_some hfind
      rw [SPTicket.isNamed, Bool.and_eq_true, beq_iff_eq] at hnamed
      exact hnamed.1
    rw [hticket, hservice]
    refine ⟨hfind, rfl, service, st, rfl, rfl, hunused, fun hproxy => ?_, hage, hmatches⟩
    rw [htype] at hproxy
    cases hproxy
  · rintro ⟨hfound, -, service, row, hservice, hrow, hunused, -, hage, hmatches⟩
    obtain rfl := Option.some.inj hrow
    refine ⟨?_, hunused, hage, service, hservice, hmatches⟩
    unfold ticketFound at hfound
    split at hfound
    · next ticket _ hticket => exact ⟨ticket, hticket, hfound⟩
    · cases hfound

/-- Both endpoints start with `validate_service_ticket`, and answer a refusal alike. -/
theorem run_refused {c : Context} {v v' : World} {found : Option SPTicket} {error : Error}
    (hallowed : c.request.ipAllowed = true)
    (hrun : Eff.run (validateServiceTicket c c.request.cleanService c.request.ticket false) v =
      (.ok (found, some error), v')) :
    Eff.run (validate c) v = (.ok (refuse error), v') ∧
      Eff.run (serviceValidate c) v = (.ok (refuse error), v') := by
  rw [validate, serviceValidate, if_pos hallowed, if_pos hallowed, run_bind_ok hrun,
    run_bind_ok hrun]
  cases found with
  | none => exact ⟨rfl, rfl⟩
  | some st => exact ⟨rfl, rfl⟩

/-- `/validate` has nothing more to look up for a good ticket. -/
theorem run_validate {c : Context} {v v' : World} (hallowed : c.request.ipAllowed = true)
    (hrun : Eff.run (validateServiceTicket c c.request.cleanService c.request.ticket false) v =
      (.ok (some st, none), v')) :
    Eff.run (validate c) v = (.ok (.success st.username none none []), v') := by
  rw [validate, if_pos hallowed, run_bind_ok hrun]
  rfl

/-- `/serviceValidate` looks up the ticket-granting ticket. -/
theorem run_serviceValidate {c : Context} {v v' : World} (hallowed : c.request.ipAllowed = true)
    (hpgt : c.request.pgtUrl = none) (htype : st.type = .serviceTicket)
    (hrun : Eff.run (validateServiceTicket c c.request.cleanService c.request.ticket false) v =
      (.ok (some st, none), v')) :
    Eff.run (serviceValidate c) v =
      match grantedByTgt v' st with
      | some tgt => (.ok (.success st.username (some tgt.extraAttributes) none []), v')
      | none => (.error .noMethodError, v') := by
  have hproxy : Eff.run (grantProxy c st) v' = (.ok none, v') := by
    rw [grantProxy, hpgt]
    rfl
  rw [serviceValidate, if_pos hallowed, run_bind_ok hrun]
  dsimp only
  rw [run_bind_ok hproxy, run_bind, extraAttributesOf, run_bind_ok (run_get v'), htype]
  cases grantedByTgt v' st with
  | none => rfl
  | some tgt => rfl

/-- What `validate_service_ticket` returns to the endpoint. -/
theorem run_validateServiceTicket_at (config : Config) (w : World) (r : Request)
    (endpoint : Endpoint) : ∃ v,
    Eff.run (validateServiceTicket (contextOf config w { r with endpoint := endpoint })
        r.cleanService r.ticket false) { w with requests := w.requests + 1 } =
      (.ok ((ticketFound w r.cleanService r.ticket).map (Consumable.consume r.now),
        serviceTicketError config r.now r.cleanService r.ticket
          (ticketFound w r.cleanService r.ticket) false), v) ∧
      v.grantingTickets = w.grantingTickets :=
  returns_validateServiceTicket

/-- The endpoints agree on whatever is refused. -/
theorem agree_of_error {error : Error} (hallowed : r.ipAllowed = true)
    (herror : serviceTicketError config r.now r.cleanService r.ticket
      (ticketFound w r.cleanService r.ticket) false = some error) : Agree config w r := by
  obtain ⟨v, hrun, -⟩ := run_validateServiceTicket_at config w r .validate
  obtain ⟨v', hrun', -⟩ := run_validateServiceTicket_at config w r .serviceValidate
  rw [herror] at hrun hrun'
  have hvalidate := (run_refused hallowed hrun).1
  have hserviceValidate := (run_refused hallowed hrun').2
  exact .failure (congrArg Prod.fst hvalidate) (congrArg Prod.fst hserviceValidate)

/-- On a good ticket `/validate` answers yes, and `/serviceValidate` does so if the
ticket-granting ticket is there; otherwise it raises. -/
theorem answers_of_validates (hallowed : r.ipAllowed = true) (hpgt : r.pgtUrl = none)
    (h : Validates config w r st) :
    answer config w { r with endpoint := .validate } =
        .ok (.success st.username none none []) ∧
      answer config w { r with endpoint := .serviceValidate } =
        match grantedByTgt w st with
        | some tgt => .ok (.success st.username (some tgt.extraAttributes) none [])
        | none => .error .noMethodError := by
  obtain ⟨hfound, herror⟩ := validates_iff.mp h
  obtain ⟨s, t, -, -, -, htype, -⟩ := ticketFound_eq_some hfound
  obtain ⟨v, hrun, -⟩ := run_validateServiceTicket_at config w r .validate
  obtain ⟨v', hrun', hgranting⟩ := run_validateServiceTicket_at config w r .serviceValidate
  rw [hfound, herror, Option.map_some] at hrun hrun'
  have hconsumed : (Consumable.consume r.now st).type = .serviceTicket := htype
  have hvalidate := run_validate hallowed hrun
  have hserviceValidate := run_serviceValidate hallowed hpgt hconsumed hrun'
  have hsame : grantedByTgt v' (Consumable.consume r.now st) = grantedByTgt w st := by
    rw [grantedByTgt, hgranting]
    rfl
  rw [hsame] at hserviceValidate
  refine ⟨congrArg Prod.fst hvalidate, (congrArg Prod.fst hserviceValidate).trans ?_⟩
  cases grantedByTgt w st with
  | none => rfl
  | some tgt => rfl

theorem exists_grantedByTgt_iff : (∃ tgt, grantedByTgt w st = some tgt) ↔
    ∃ tgt ∈ w.grantingTickets.rows, st.grantedByTgtId = some tgt.id := by
  rw [← Option.isSome_iff_exists, grantedByTgt, List.find?_isSome]
  refine exists_congr fun tgt => and_congr_right fun _ => ?_
  rw [beq_iff_eq, eq_comm]

/-- Without a good ticket there is nothing to look up, and with one it is found. -/
theorem agree_of_granted (hallowed : r.ipAllowed = true) (hpgt : r.pgtUrl = none)
    (hgranted : ∀ st, Validates config w r st →
      ∃ tgt ∈ w.grantingTickets.rows, st.grantedByTgtId = some tgt.id) : Agree config w r := by
  cases herror : serviceTicketError config r.now r.cleanService r.ticket
    (ticketFound w r.cleanService r.ticket) false with
  | some error => exact agree_of_error hallowed herror
  | none =>
    obtain ⟨-, service, st, -, hfound, -⟩ := serviceTicketError_eq_none.mp herror
    rw [hfound] at herror
    have hst : Validates config w r st := validates_iff.mpr ⟨hfound, herror⟩
    obtain ⟨hvalidate, hserviceValidate⟩ := answers_of_validates hallowed hpgt hst
    obtain ⟨tgt, htgt⟩ := exists_grantedByTgt_iff.mpr (hgranted st hst)
    rw [htgt] at hserviceValidate
    exact .success hvalidate hserviceValidate

/-- **The two endpoints agree iff the ticket-granting ticket of every ticket that the
request can validate is still there.** -/
theorem agree_iff {rs : List Request} (hallowed : r.ipAllowed = true) (hpgt : r.pgtUrl = none) :
    Agree config (run config rs) r ↔ ∀ st, Validates config (run config rs) r st →
      ∃ tgt ∈ (run config rs).grantingTickets.rows, st.grantedByTgtId = some tgt.id := by
  refine ⟨fun hagree st hst => ?_, agree_of_granted hallowed hpgt⟩
  obtain ⟨hvalidate, hserviceValidate⟩ := answers_of_validates hallowed hpgt hst
  refine exists_grantedByTgt_iff.mp ?_
  cases hgranted : grantedByTgt (run config rs) st with
  | some tgt => exact ⟨tgt, rfl⟩
  | none =>
    -- `/serviceValidate` has raised
    rw [hgranted] at hserviceValidate
    cases hagree with
    | success _ hsuccess => cases hserviceValidate.symm.trans hsuccess
    | failure hfailure _ => cases hvalidate.symm.trans hfailure

end Verdicts

/-! ### Where a ticket-granting ticket has gone -/

/-- The ticket-granting ticket of the service ticket is there, or has been destroyed. -/
def GrantedOrDestroyed (w : World) (st : SPTicket) : Prop :=
  ∃ tgt, st.grantedByTgtId = some tgt.id ∧
    (tgt ∈ w.grantingTickets.rows ∨ ∃ e ∈ w.history, e.event = .destroyed tgt)

/-- That is so of every service ticket. -/
def World.Granted (w : World) : Prop :=
  ∀ st ∈ w.serviceTickets.rows, st.type = .serviceTicket → GrantedOrDestroyed w st

section Destroyed

variable {c : Context} {w w' : World}

/-- A longer history, in which the rows that have gone are destroyed. -/
theorem GrantedOrDestroyed.mono {st : SPTicket} (h : GrantedOrDestroyed w st)
    (hgranting : ∀ tgt ∈ w.grantingTickets.rows,
      tgt ∈ w'.grantingTickets.rows ∨ ∃ e ∈ w'.history, e.event = .destroyed tgt)
    (hhistory : ∀ e ∈ w.history, e ∈ w'.history) : GrantedOrDestroyed w' st := by
  obtain ⟨tgt, hid, hrow | ⟨e, he, hdestroyed⟩⟩ := h
  · exact ⟨tgt, hid, hgranting tgt hrow⟩
  · exact ⟨tgt, hid, Or.inr ⟨e, hhistory e he, hdestroyed⟩⟩

/-- An event that destroys nothing. -/
theorem GrantedOrDestroyed.log {st : SPTicket} (h : GrantedOrDestroyed w st)
    (hgranting : ∀ tgt ∈ w.grantingTickets.rows, tgt ∈ w'.grantingTickets.rows)
    {more : List Entry} (hhistory : w'.history = w.history ++ more) : GrantedOrDestroyed w' st := by
  refine h.mono (fun tgt htgt => Or.inl (hgranting tgt htgt)) fun e he => ?_
  rw [hhistory]
  exact List.mem_append_left more he

/-- **Every change keeps it.** -/
theorem World.Granted.change (h : w.Granted) (hchange : Change c w w') : w'.Granted := by
  cases hchange with
  | draw => exact h
  | setLoginTickets => exact h
  | destroyProxyGrantingTickets => exact h
  | authenticate => exact fun st hst htype => (h st hst htype).log (fun _ htgt => htgt) rfl
  | grantProxy => exact fun st hst htype => (h st hst htype).log (fun _ htgt => htgt) rfl
  | validate => exact fun st hst htype => (h st hst htype).log (fun _ htgt => htgt) rfl
  | grant =>
    exact fun st hst htype => (h st hst htype).log (fun _ => List.mem_append_left _) rfl
  | issue hentitles =>
    intro st hst htype
    rcases List.mem_append.mp hst with hold | hnew
    · exact (h st hold htype).log (fun _ htgt => htgt) rfl
    · rw [List.mem_singleton.mp hnew]
      exact ⟨_, rfl, Or.inl hentitles.row⟩
  | issueProxy =>
    intro st hst htype
    rcases List.mem_append.mp hst with hold | hnew
    · exact (h st hold htype).log (fun _ htgt => htgt) rfl
    · rw [List.mem_singleton.mp hnew] at htype
      cases htype
  | consume =>
    intro st hst
    obtain ⟨old, hold, rfl⟩ := List.mem_map.mp hst
    split
    · exact h old hold
    · exact h old hold
  | @destroy tgt htgt =>
    intro st hst htype
    refine (h st hst htype).mono (fun row hrow => ?_) fun _ => List.mem_append_left _
    by_cases hid : row.id = tgt.id
    · obtain rfl := w.grantingTickets.eq_of_key hrow htgt hid
      exact Or.inr ⟨_, List.mem_append_right _ (List.mem_singleton_self _), rfl⟩
    · exact Or.inl (Table.mem_keep.mpr ⟨hrow, bne_iff_ne.mpr hid⟩)
  | destroyServiceTicket => exact fun st hst => h st (Table.mem_keep.mp hst).1

end Destroyed

/-- **Where the ticket-granting ticket of a service ticket is not there, it was destroyed.** -/
theorem granted_or_destroyed (config : Config) (rs : List Request) : (run config rs).Granted :=
  inv_run (fun _ _ _ _ hchange h => h.change hchange) (fun _ _ h => h)
    (fun _ hst => absurd hst List.not_mem_nil) rs

/-- As long as no session has been ended, the endpoints agree. -/
theorem agree_of_not_destroyed {config : Config} {rs : List Request} {r : Request}
    (hlasting : ∀ e ∈ (run config rs).history, ∀ tgt, e.event ≠ .destroyed tgt)
    (hallowed : r.ipAllowed = true) (hpgt : r.pgtUrl = none) : Agree config (run config rs) r := by
  refine agree_of_granted hallowed hpgt fun st hst => ?_
  obtain ⟨s, t, -, -, hrow, htype, -⟩ := ticketFound_eq_some (validates_iff.mp hst).1
  obtain ⟨tgt, hid, htgt | ⟨e, he, hdestroyed⟩⟩ := granted_or_destroyed config rs st hrow htype
  · exact ⟨tgt, htgt, hid⟩
  · exact absurd hdestroyed (hlasting e he tgt)

/-- A ticket is issued in the last minute of a session, and the session ended after that. -/
def lastMinute : List Request :=
  [{ endpoint := .postLoginTicket, now := 0 },
   { endpoint := .postLogin, now := 10, username := some "an", lt := some "LT-0",
     auth := [fun _ _ _ => .accepted []] },
   { endpoint := .getLogin, now := 172800, tgt := some "TGC-2",
     service := some "http://app.example" },
   { endpoint := .getLogin, now := 172820, tgt := some "TGC-2" }]

/-- The application asks for the ticket. -/
def presentsLast : Request :=
  { endpoint := .serviceValidate, now := 172830, service := some "http://app.example",
    ticket := some "ST-3" }

/-- `/validate` says yes, and `/serviceValidate` raises. -/
theorem disagree_lastMinute :
    answer plainConfig (run plainConfig lastMinute) { presentsLast with endpoint := .validate } =
        .ok (.success "an" none none []) ∧
      answer plainConfig (run plainConfig lastMinute) presentsLast = .error .noMethodError ∧
      ¬ Agree plainConfig (run plainConfig lastMinute) presentsLast := by
  have hraises : answer plainConfig (run plainConfig lastMinute) presentsLast =
      .error .noMethodError := by decide +kernel
  refine ⟨by decide +kernel, hraises, fun hagree => ?_⟩
  cases hagree with
  | success _ hsuccess => cases hraises.symm.trans hsuccess
  | failure _ hfailure => cases hraises.symm.trans hfailure

/-- What the theorem says of this ticket. -/
theorem agree_lastMinute_iff :
    Agree plainConfig (run plainConfig lastMinute) presentsLast ↔
      ∀ st, Validates plainConfig (run plainConfig lastMinute) presentsLast st →
        ∃ tgt ∈ (run plainConfig lastMinute).grantingTickets.rows,
          st.grantedByTgtId = some tgt.id :=
  @agree_iff plainConfig presentsLast lastMinute rfl rfl

end BkPlatform.Cas
