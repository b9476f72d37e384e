import BkPlatform.Cas.Soundness

/-!
# The history as a record of the tickets

The history holds every ticket there has been.  A row of a table is in it, a key
names one ticket of it, and every ticket it has issued names its origin there.
The rows may be gone by then: what a later request can still do with a ticket is
often a matter of what the history says and the tables no longer do.

## Main definitions

* `tickets f history` — the tickets of one kind.
* `Recorded`, `World.Recorded` — a table and its record.
* `Origin` — how a ticket came to be issued.
* `World.Kept` — all that the history and the tables say of each other.

## Main results

* `kept_run` — it holds after every run.
-/

namespace BkPlatform.Cas

open Log

/-! ### All tickets of one kind -/

section Tickets

variable {ρ : Type} {f : Event → Option ρ} {history : List Entry} {e : Entry} {row : ρ}

/-- The tickets the history holds, as `f` reads them off an event. -/
def tickets (f : Event → Option ρ) (history : List Entry) : List ρ :=
  history.filterMap fun e => f e.event

theorem mem_tickets : row ∈ tickets f history ↔ ∃ e ∈ history, f e.event = some row := by
  simp [tickets]

theorem tickets_snoc_some (h : f e.event = some row) :
    tickets f (history ++ [e]) = tickets f history ++ [row] := by
  simp [tickets, List.filterMap_append, h]

theorem tickets_snoc_none (h : f e.event = none) :
    tickets f (history ++ [e]) = tickets f history := by
  simp [tickets, List.filterMap_append, h]

/-- What the history holds it keeps. -/
theorem mem_tickets_append (h : row ∈ tickets f history) (more : List Entry) :
    row ∈ tickets f (history ++ more) := by
  rw [tickets, List.filterMap_append]
  exact List.mem_append_left _ h

end Tickets

/-- The ticket-granting ticket that is granted. -/
def Event.grantedTicket : Event → Option TicketGrantingTicket
  | .granted tgt => some tgt
  | _ => none

/-- The service or proxy ticket that is issued. -/
def Event.issuedTicket : Event → Option SPTicket
  | .issued st => some st
  | _ => none

/-- The proxy-granting ticket that is granted. -/
def Event.proxyGrantedTicket : Event → Option ProxyGrantingTicket
  | .proxyGranted pgt => some pgt
  | _ => none

theorem mem_grantedTickets {history : List Entry} {tgt : TicketGrantingTicket} :
    tgt ∈ tickets Event.grantedTicket history ↔ ∃ n r, ⟨n, r, .granted tgt⟩ ∈ history := by
  rw [mem_tickets]
  constructor
  · rintro ⟨⟨n, r, event⟩, he, hevent⟩
    cases event <;> simp only [Event.grantedTicket, Option.some.injEq, reduceCtorEq] at hevent
    subst hevent
    exact ⟨n, r, he⟩
  · rintro ⟨n, r, he⟩
    exact ⟨_, he, rfl⟩

theorem mem_issuedTickets {history : List Entry} {st : SPTicket} :
    st ∈ tickets Event.issuedTicket history ↔ ∃ n r, ⟨n, r, .issued st⟩ ∈ history := by
  rw [mem_tickets]
  constructor
  · rintro ⟨⟨n, r, event⟩, he, hevent⟩
    cases event <;> simp only [Event.issuedTicket, Option.some.injEq, reduceCtorEq] at hevent
    subst hevent
    exact ⟨n, r, he⟩
  · rintro ⟨n, r, he⟩
    exact ⟨_, he, rfl⟩

/-! ### A table and its record -/

section Recorded

variable {ρ : Type} {key : ρ → ℕ} {f : Event → Option ρ} {same : ρ → ρ} {t : Table ρ key}
  {history : List Entry} {e : Entry}

/-- The history holds the rows of the table, as they were when they were inserted, and
names all rows there have been by their keys. -/
structure Recorded (f : Event → Option ρ) (same : ρ → ρ) (t : Table ρ key)
    (history : List Entry) : Prop where
  numbered : Numbered key t.nextId (tickets f history)
  rows : ∀ row ∈ t.rows, same row ∈ tickets f history

/-- An event of another kind. -/
theorem Recorded.other (h : Recorded f same t history) (hother : f e.event = none) :
    Recorded f same t (history ++ [e]) where
  numbered := by
    rw [tickets_snoc_none hother]
    exact h.numbered
  rows := fun row hrow => mem_tickets_append (h.rows row hrow) [e]

/-- The event of an insertion. -/
theorem Recorded.insert (h : Recorded f same t history) {make : ℕ → ρ}
    (hmake : ∀ id, key (make id) = id) (hnew : f e.event = some (make t.nextId))
    (hsame : same (make t.nextId) = make t.nextId) :
    Recorded f same (t.insert make hmake) (history ++ [e]) where
  numbered := by
    rw [tickets_snoc_some hnew]
    exact h.numbered.snoc (hmake t.nextId)
  rows := fun row hrow => by
    rcases Table.mem_insert.mp hrow with hold | rfl
    · exact mem_tickets_append (h.rows row hold) [e]
    · rw [tickets_snoc_some hnew, hsame]
      exact List.mem_append_right _ (List.mem_singleton_self _)

theorem Recorded.keep (h : Recorded f same t history) (p : ρ → Bool) :
    Recorded f same (t.keep p) history where
  numbered := h.numbered
  rows := fun row hrow => h.rows row (Table.mem_keep.mp hrow).1

/-- A row may change in what the record does not hold. -/
theorem Recorded.modify (h : Recorded f same t history) {g : ρ → ρ}
    (hg : ∀ row, key (g row) = key row) (hsame : ∀ row, same (g row) = same row) :
    Recorded f same (t.modify g hg) history where
  numbered := h.numbered
  rows := fun row hrow => by
    obtain ⟨old, hold, rfl⟩ := Table.mem_modify.mp hrow
    rw [hsame]
    exact h.rows old hold

end Recorded

/-- The record of a world. -/
structure World.Recorded (w : World) : Prop where
  granted : Cas.Recorded Event.grantedTicket id w.grantingTickets w.history
  issued : Cas.Recorded Event.issuedTicket SPTicket.asIssued w.serviceTickets w.history
  proxyGranted : Cas.Recorded Event.proxyGrantedTicket id w.proxyGrantingTickets w.history

/-- **Every change keeps the record.** -/
theorem World.Recorded.change {c : Context} {w w' : World} (h : w.Recorded)
    (hchange : Change c w w') : w'.Recorded := by
  cases hchange with
  | draw => exact ⟨h.granted, h.issued, h.proxyGranted⟩
  | setLoginTickets => exact ⟨h.granted, h.issued, h.proxyGranted⟩
  | authenticate => exact ⟨h.granted.other rfl, h.issued.other rfl, h.proxyGranted.other rfl⟩
  | grant =>
    exact ⟨h.granted.insert (fun _ => rfl) rfl rfl, h.issued.other rfl, h.proxyGranted.other rfl⟩
  | issue =>
    exact ⟨h.granted.other rfl, h.issued.insert (fun _ => rfl) rfl rfl, h.proxyGranted.other rfl⟩
  | issueProxy =>
    exact ⟨h.granted.other rfl, h.issued.insert (fun _ => rfl) rfl rfl, h.proxyGranted.other rfl⟩
  | grantProxy =>
    exact ⟨h.granted.other rfl, h.issued.other rfl, h.proxyGranted.insert (fun _ => rfl) rfl rfl⟩
  | consume =>
    -- consuming a ticket does not touch what it was when it was issued
    refine ⟨h.granted, h.issued.modify (fun row => by split <;> rfl) fun row => ?_, h.proxyGranted⟩
    split <;> rfl
  | validate => exact ⟨h.granted.other rfl, h.issued.other rfl, h.proxyGranted.other rfl⟩
  | destroy =>
    exact ⟨(h.granted.other rfl).keep _, h.issued.other rfl, h.proxyGranted.other rfl⟩
  | destroyServiceTicket => exact ⟨h.granted, h.issued.keep _, h.proxyGranted⟩
  | destroyProxyGrantingTickets => exact ⟨h.granted, h.issued, h.proxyGranted.keep _⟩

theorem recorded_empty : World.empty.Recorded where
  granted := ⟨.nil, fun _ hrow => absurd hrow List.not_mem_nil⟩
  issued := ⟨.nil, fun _ hrow => absurd hrow List.not_mem_nil⟩
  proxyGranted := ⟨.nil, fun _ hrow => absurd hrow List.not_mem_nil⟩

/-! ### Where a ticket comes from -/

/-- How the ticket of an entry came to be issued, given the entries before. -/
inductive Origin (config : Config) (before : List Entry) (e : Entry) (st : SPTicket) : Prop
  | login {tgt : TicketGrantingTicket} (hendpoint : e.request.endpoint = .postLogin)
      (htype : st.type = .serviceTicket) (hid : st.grantedByTgtId = some tgt.id)
      (hgranted : ⟨e.number, e.request, .granted tgt⟩ ∈ before) : Origin config before e st
  | cookie {tgt : TicketGrantingTicket} (hendpoint : e.request.endpoint = .getLogin)
      (htype : st.type = .serviceTicket) (hid : st.grantedByTgtId = some tgt.id)
      (hgranted : tgt ∈ tickets Event.grantedTicket before)
      (hcookie : e.request.tgt = some tgt.ticket)
      (hfresh : expired config e.request.now tgt = false) : Origin config before e st
  | proxy {pgt : ProxyGrantingTicket} {st' : SPTicket} (hendpoint : e.request.endpoint = .proxy)
      (htype : st.type = .proxyTicket) (hpt : st.grantedByPgtId = some pgt.id)
      (hid : st.grantedByTgtId = st'.grantedByTgtId)
      (hpgt : pgt ∈ tickets Event.proxyGrantedTicket before)
      (hst : st' ∈ tickets Event.issuedTicket before) (hderived : st'.id = pgt.serviceTicketId) :
      Origin config before e st

/-- The letters a ticket of this type begins with. -/
def TicketType.initials : TicketType → String
  | .serviceTicket => "ST-"
  | .proxyTicket => "PT-"

/-- What an entry says of its ticket: it was granted in a login, and then; or it is named
by its type, and has an origin. -/
structure Originates (config : Config) (before : List Entry) (e : Entry) : Prop where
  granted : ∀ tgt, e.event = .granted tgt →
    e.request.endpoint = .postLogin ∧ tgt.createdOn = e.request.now
  named : ∀ st, e.event = .issued st → ∃ random, st.ticket = st.type.initials ++ random
  issued : ∀ st, e.event = .issued st → Origin config before e st

/-- An event that neither grants nor issues a ticket. -/
theorem originates_of_other {config : Config} {before : List Entry} {e : Entry}
    (hgranted : e.event.grantedTicket = none) (hissued : e.event.issuedTicket = none) :
    Originates config before e where
  granted := fun tgt heq => by simp [heq, Event.grantedTicket] at hgranted
  named := fun st heq => by simp [heq, Event.issuedTicket] at hissued
  issued := fun st heq => by simp [heq, Event.issuedTicket] at hissued

/-- A ticket-granting ticket that is granted. -/
theorem originates_granted {config : Config} {before : List Entry} {n : ℕ} {r : Request}
    {tgt : TicketGrantingTicket} (hendpoint : r.endpoint = .postLogin)
    (hnew : tgt.createdOn = r.now) : Originates config before ⟨n, r, .granted tgt⟩ where
  granted := fun tgt' heq => by
    obtain rfl := Event.granted.inj heq
    exact ⟨hendpoint, hnew⟩
  named := fun _ heq => by cases heq
  issued := fun _ heq => by cases heq

/-- A ticket that is issued. -/
theorem originates_issued {config : Config} {before : List Entry} {n : ℕ} {r : Request}
    {st : SPTicket} (hnamed : ∃ random, st.ticket = st.type.initials ++ random)
    (horigin : Origin config before ⟨n, r, .issued st⟩ st) :
    Originates config before ⟨n, r, .issued st⟩ where
  granted := fun _ heq => by cases heq
  named := fun st' heq => by
    obtain rfl := Event.issued.inj heq
    exact hnamed
  issued := fun st' heq => by
    obtain rfl := Event.issued.inj heq
    exact horigin

/-- A ticket that is issued in a login or on a cookie. -/
theorem Context.Entitles.origin {c : Context} {w : World} {tgt : TicketGrantingTicket}
    (h : c.Entitles w tgt) (hrec : w.Recorded) {event : Event} {st : SPTicket}
    (htype : st.type = .serviceTicket) (hid : st.grantedByTgtId = some tgt.id) :
    Origin c.config w.history ⟨c.number, c.request, event⟩ st := by
  rcases h.route with ⟨hendpoint, hgranted⟩ | ⟨hendpoint, hcookie, hfresh⟩
  · exact .login hendpoint htype hid hgranted
  · exact .cookie hendpoint htype hid (hrec.granted.rows tgt h.row) hcookie hfresh

/-- **Every change keeps the origins.** -/
theorem originates_change {c : Context} {w w' : World} (hrec : w.Recorded)
    (h : Always (Originates c.config) w.history) (hchange : Change c w w') :
    Always (Originates c.config) w'.history := by
  cases hchange with
  | draw => exact h
  | setLoginTickets => exact h
  | authenticate => exact always_snoc.mpr ⟨h, originates_of_other rfl rfl⟩
  | grant hendpoint => exact always_snoc.mpr ⟨h, originates_granted hendpoint rfl⟩
  | issue hentitles =>
    exact always_snoc.mpr ⟨h, originates_issued ⟨_, rfl⟩ (hentitles.origin hrec rfl rfl)⟩
  | @issueProxy pgt st service hendpoint _ hpgt hst =>
    obtain ⟨hrow, -, hderived⟩ := serviceTicketOf_eq_some hst
    refine always_snoc.mpr ⟨h, originates_issued ⟨_, rfl⟩ ?_⟩
    have hissued := hrec.issued.rows st hrow
    refine .proxy hendpoint rfl rfl ?_ (hrec.proxyGranted.rows pgt hpgt) hissued hderived
    rfl
  | grantProxy => exact always_snoc.mpr ⟨h, originates_of_other rfl rfl⟩
  | consume => exact h
  | validate => exact always_snoc.mpr ⟨h, originates_of_other rfl rfl⟩
  | destroy => exact always_snoc.mpr ⟨h, originates_of_other rfl rfl⟩
  | destroyServiceTicket => exact h
  | destroyProxyGrantingTickets => exact h

/-! ### Runs -/

/-- What the history and the tables say of each other. -/
structure World.Kept (config : Config) (w : World) : Prop where
  sound : w.Sound config
  recorded : w.Recorded
  originates : Always (Originates config) w.history

theorem World.Kept.change {c : Context} {w w' : World} (h : w.Kept c.config)
    (hchange : Change c w w') : w'.Kept c.config :=
  ⟨h.sound.change hchange, h.recorded.change hchange,
    originates_change h.recorded h.originates hchange⟩

/-- Counting a request changes nothing of it. -/
theorem World.Kept.count {config : Config} {w : World} (h : w.Kept config) (n : ℕ) :
    World.Kept config { w with requests := n } :=
  ⟨h.sound, ⟨h.recorded.granted, h.recorded.issued, h.recorded.proxyGranted⟩, h.originates⟩

theorem kept_empty (config : Config) : World.empty.Kept config :=
  ⟨sound_empty, recorded_empty, always_nil⟩

/-- **After every run the record is kept, and says where the tickets come from.** -/
theorem kept_run (config : Config) (rs : List Request) : (run config rs).Kept config := by
  refine inv_run (fun c w w' hc hchange h => ?_) (fun _ n h => h.count n) (kept_empty config) rs
  subst hc
  exact h.change hchange

theorem recorded_run (config : Config) (rs : List Request) : (run config rs).Recorded :=
  (kept_run config rs).recorded

theorem originates_run (config : Config) (rs : List Request) :
    Always (Originates config) (run config rs).history :=
  (kept_run config rs).originates

end BkPlatform.Cas
