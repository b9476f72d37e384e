import BkPlatform.Cas.Records

/-!
# What a logout ends

A logout that goes through takes the ticket-granting ticket of the cookie and its
service tickets out of the tables, and with them all that a later request could
do with its tickets (`logout_final`).

Its proxy-granting tickets it does not find.  They are selected by a join on the
service tickets and the username, after the service tickets of the session have
been destroyed: those of the session drop out of the join, and those of the
user's other sessions are in it (`exactLogout_iff`).

## Main definitions

* `LoggedOut t w w'` — what a logout of `t` has done.
* `Over` — nothing more happens with the tickets of `t`.
* `ExactLogout` — the proxy-granting tickets of `t` go, and no other.

## Main results

* `loggedOut_of_answer` — what a logout that goes through has done.
* `logout_final` — **a logout is final.**
* `exactLogout_iff` — **a logout removes exactly its own proxy-granting tickets iff its
  user has none.**
-/

namespace BkPlatform.Cas

open Eff Log

/-! ### What a logout does -/

/-- The ticket-granting ticket `t` is gone, and its service tickets; and so is every
proxy-granting ticket that then still has a service ticket of its user. -/
structure LoggedOut (t : TicketGrantingTicket) (w w' : World) : Prop where
  granting : w'.grantingTickets = w.grantingTickets.keep fun row => row.id != t.id
  service : ∀ st, st ∈ w'.serviceTickets.rows ↔
    st ∈ w.serviceTickets.rows ∧ ¬ (st.type = .serviceTicket ∧ st.grantedByTgtId = some t.id)
  proxyGranting : ∀ pgt, pgt ∈ w'.proxyGrantingTickets.rows ↔
    pgt ∈ w.proxyGrantingTickets.rows ∧
      ∀ st, serviceTicketOf w' pgt = some st → st.username ≠ t.username

section Logout

variable {c : Context} {t : TicketGrantingTicket} {w₁ : World}

/-- A world that differs from `w₁` in the service tickets, of which those with `Q` are left. -/
structure Left (w₁ : World) (Q : SPTicket → Prop) (w : World) : Prop where
  granting : w.grantingTickets = w₁.grantingTickets
  proxyGranting : w.proxyGrantingTickets = w₁.proxyGrantingTickets
  service : ∀ st, st ∈ w.serviceTickets.rows ↔ Q st

theorem left_destroyServiceTickets (sts : List SPTicket) (Q : SPTicket → Prop) :
    Triple (Left w₁ Q) (destroyServiceTickets c sts)
      (fun _ => Left w₁ fun st => Q st ∧ ∀ x ∈ sts, st.id ≠ x.id) (fun _ => True) := by
  induction sts generalizing Q with
  | nil =>
    refine Triple.pure fun w hw => ⟨hw.granting, hw.proxyGranting, fun st => ?_⟩
    rw [hw.service st]
    exact (and_iff_left fun x hx => absurd hx List.not_mem_nil).symm
  | cons x rest ih =>
    have hnotify : Triple (Left w₁ Q) (notifyService c x) (fun _ => Left w₁ Q) (fun _ => True) :=
      keeps_notifyService.weaken (fun _ hw => hw) (fun _ _ hw => hw) fun _ _ => trivial
    refine Triple.bind hnotify fun _ => ?_
    refine Triple.bind (M := fun _ => Left w₁ fun st => Q st ∧ st.id ≠ x.id)
      (Triple.modify fun w hw => ⟨hw.granting, hw.proxyGranting, fun st => ?_⟩) fun _ => ?_
    · rw [Table.mem_keep, hw.service st, bne_iff_ne]
    · refine (ih _).post fun _ w hw => ⟨hw.granting, hw.proxyGranting, fun st => ?_⟩
      rw [hw.service st, List.forall_mem_cons, and_assoc]

/-- The keys of the granted service tickets say which they are. -/
theorem ne_grantedServiceTickets {w : World} {st : SPTicket} (hst : st ∈ w.serviceTickets.rows) :
    (∀ x ∈ grantedServiceTickets w t, st.id ≠ x.id) ↔
      ¬ (st.type = .serviceTicket ∧ st.grantedByTgtId = some t.id) := by
  have hmem : ∀ x, x ∈ grantedServiceTickets w t ↔ x ∈ w.serviceTickets.rows ∧
      x.type = .serviceTicket ∧ x.grantedByTgtId = some t.id := by
    intro x
    simp [grantedServiceTickets]
  constructor
  · intro hne hgranted
    exact hne st ((hmem st).mpr ⟨hst, hgranted⟩) rfl
  · intro hnot x hx hid
    obtain ⟨hrow, hgranted⟩ := (hmem x).mp hx
    obtain rfl := w.serviceTickets.eq_of_key hst hrow hid
    exact hnot hgranted

/-- The rows the join selects, and no others, are destroyed. -/
theorem join_eq_false {o : Option SPTicket} {username : String} :
    (!o.any fun st => st.username == username) = true ↔
      ∀ st, o = some st → st.username ≠ username := by
  cases o with
  | none => simp
  | some st => simp

theorem loggedOut_endSession :
    Triple (fun w => w = w₁) (endSession c t) (fun _ => LoggedOut t w₁) (fun _ => True) := by
  apply Triple.bind Triple.get
  rintro w s ⟨hs, rfl⟩
  subst hs
  have hleft : Triple (fun s => s = w) (destroyServiceTickets c (grantedServiceTickets w t))
      (fun _ => Left w fun st => st ∈ w.serviceTickets.rows ∧
        ∀ x ∈ grantedServiceTickets w t, st.id ≠ x.id) (fun _ => True) := by
    refine (left_destroyServiceTickets _ fun st => st ∈ w.serviceTickets.rows).pre ?_
    rintro s rfl
    exact ⟨rfl, rfl, fun st => Iff.rfl⟩
  refine Triple.bind hleft (fun _ => ?_) w rfl
  intro s hs
  -- the join is evaluated where the service tickets of the session are gone already
  refine ⟨?_, fun st => ?_, fun pgt => ?_⟩
  · rw [← hs.granting]
  · rw [hs.service st]
    exact and_congr_right fun hst => ne_grantedServiceTickets hst
  · rw [← hs.proxyGranting]
    exact Table.mem_keep.trans (and_congr_right fun _ => join_eq_false)

/-- A logout that goes through has ended the session of the cookie. -/
theorem loggedOut_logout (c : Context) (w₁ : World)
    (hfind : findGrantingTicket w₁ c.request.tgt = some t) :
    Triple (fun w => w = w₁) (logout c) (fun _ => LoggedOut t w₁) (fun _ => True) := by
  have hend : Triple (fun w => w = w₁) (endCookieSession c) (fun _ => LoggedOut t w₁)
      (fun _ => True) := by
    apply Triple.bind Triple.get
    rintro w s ⟨hs, rfl⟩
    subst hs
    rw [hfind]
    exact Triple.transaction loggedOut_endSession (fun _ _ => trivial) w rfl
  refine Triple.bind hend fun _ => ?_
  have hform : Triple (LoggedOut t w₁) (generateLoginTicket c) (fun _ => LoggedOut t w₁)
      (fun _ => True) := by
    intro w hw
    exact ⟨hw.granting, hw.service, hw.proxyGranting⟩
  refine Triple.bind hform fun lt => ?_
  split
  · exact Triple.pure fun _ hw => hw
  · exact Triple.pure fun _ hw => hw

/-- **What a logout that goes through has done.** -/
theorem loggedOut_of_answer {config : Config} {w : World} {r : Request} {response : Response}
    (hendpoint : r.endpoint = .logout) (hfind : findGrantingTicket w r.tgt = some t)
    (hdone : answer config w r = .ok response) : LoggedOut t w (handle config w r) := by
  have hrespond : respond (contextOf config w r) = logout (contextOf config w r) :=
    respond_logout hendpoint
  have hlogout := loggedOut_logout (contextOf config w r) { w with requests := w.requests + 1 }
    hfind _ rfl
  rw [← hrespond] at hlogout
  unfold answer at hdone
  unfold handle
  rcases hrun : Eff.run (respond (contextOf config w r)) { w with requests := w.requests + 1 }
    with ⟨o, w'⟩
  rw [hrun] at hlogout
  simp only [contextOf] at hrun
  rw [hrun] at hdone ⊢
  cases o with
  | error e => cases hdone
  | ok a => exact ⟨hlogout.granting, hlogout.service, hlogout.proxyGranting⟩

end Logout

/-! ### A logout is final -/

/-- The ticket is used in this event: issued, or accepted. -/
def Event.usedTicket : Event → Option SPTicket
  | .issued st => some st
  | .validated _ st => some st
  | _ => none

/-- Nothing is left in the tables to use a ticket granted by `t` with, and nothing has been
used since the history was `base`. -/
structure Ended (t : TicketGrantingTicket) (base : List Entry) (w : World) : Prop where
  fresh : t.id < w.grantingTickets.nextId
  granting : ∀ tgt ∈ w.grantingTickets.rows, tgt.id ≠ t.id
  service : ∀ st ∈ w.serviceTickets.rows, st.type = .serviceTicket → st.grantedByTgtId ≠ some t.id
  history : ∃ more, w.history = base ++ more ∧
    ∀ e ∈ more, ∀ st, e.event.usedTicket = some st → st.grantedByTgtId ≠ some t.id

section Ended

variable {t : TicketGrantingTicket} {base : List Entry} {w w' : World} {c : Context}

/-- One more event, in which no ticket granted by `t` is used. -/
theorem Ended.log (h : Ended t base w) {e : Entry}
    (he : ∀ st, e.event.usedTicket = some st → st.grantedByTgtId ≠ some t.id) :
    ∃ more, w.history ++ [e] = base ++ more ∧
      ∀ e ∈ more, ∀ st, e.event.usedTicket = some st → st.grantedByTgtId ≠ some t.id := by
  obtain ⟨more, hmore, hunused⟩ := h.history
  refine ⟨more ++ [e], by rw [hmore, List.append_assoc], fun x hx => ?_⟩
  rcases List.mem_append.mp hx with hold | hnew
  · exact hunused x hold
  · rw [List.mem_singleton.mp hnew]
    exact he

/-- An event in which no ticket is used. -/
theorem Ended.logUnused (h : Ended t base w) {e : Entry} (he : e.event.usedTicket = none) :
    ∃ more, w.history ++ [e] = base ++ more ∧
      ∀ e ∈ more, ∀ st, e.event.usedTicket = some st → st.grantedByTgtId ≠ some t.id :=
  h.log fun st hst => by rw [he] at hst; cases hst

/-- **Every change leaves an ended session ended.** -/
theorem Ended.change (h : Ended t base w) (hchange : Change c w w') : Ended t base w' := by
  cases hchange with
  | draw => exact ⟨h.fresh, h.granting, h.service, h.history⟩
  | setLoginTickets => exact ⟨h.fresh, h.granting, h.service, h.history⟩
  | authenticate => exact ⟨h.fresh, h.granting, h.service, h.logUnused rfl⟩
  | grant =>
    refine ⟨Nat.lt_succ_of_lt h.fresh, fun tgt htgt => ?_, h.service, h.logUnused rfl⟩
    rcases List.mem_append.mp htgt with hold | hnew
    · exact h.granting tgt hold
    · -- the key of the new row is one that `t` cannot have
      rw [List.mem_singleton.mp hnew]
      exact Nat.ne_of_gt h.fresh
  | @issue tgt service hentitles =>
    have hnot : some tgt.id ≠ some t.id := fun heq =>
      h.granting tgt hentitles.row (Option.some.inj heq)
    refine ⟨h.fresh, h.granting, fun st hst => ?_, h.log fun st hst => ?_⟩
    · rcases List.mem_append.mp hst with hold | hnew
      · exact h.service st hold
      · rw [List.mem_singleton.mp hnew]
        exact fun _ => hnot
    · obtain rfl := Option.some.inj hst
      exact hnot
  | @issueProxy pgt st service _ _ _ hst =>
    obtain ⟨hrow, htype, -⟩ := serviceTicketOf_eq_some hst
    refine ⟨h.fresh, h.granting, fun pt hpt => ?_, h.log fun pt hpt => ?_⟩
    · rcases List.mem_append.mp hpt with hold | hnew
      · exact h.service pt hold
      · rw [List.mem_singleton.mp hnew]
        exact fun hservice => by cases hservice
    · obtain rfl := Option.some.inj hpt
      exact h.service st hrow htype
  | grantProxy => exact ⟨h.fresh, h.granting, h.service, h.logUnused rfl⟩
  | consume =>
    refine ⟨h.fresh, h.granting, fun st hst => ?_, h.history⟩
    obtain ⟨old, hold, rfl⟩ := List.mem_map.mp hst
    split
    · exact h.service old hold
    · exact h.service old hold
  | validate hst htype =>
    refine ⟨h.fresh, h.granting, h.service, h.log fun st heq => ?_⟩
    obtain rfl := Option.some.inj heq
    exact h.service _ hst htype
  | destroy =>
    refine ⟨h.fresh, fun tgt htgt => ?_, h.service, h.logUnused rfl⟩
    exact h.granting tgt (Table.mem_keep.mp htgt).1
  | destroyServiceTicket =>
    exact ⟨h.fresh, h.granting, fun st hst => h.service st (Table.mem_keep.mp hst).1, h.history⟩
  | destroyProxyGrantingTickets => exact ⟨h.fresh, h.granting, h.service, h.history⟩

/-- A logout that goes through has ended the session. -/
theorem LoggedOut.ended (h : LoggedOut t w w') (ht : t ∈ w.grantingTickets.rows) :
    Ended t w'.history w' where
  fresh := by
    rw [h.granting]
    exact w.grantingTickets.fresh t ht
  granting := fun tgt htgt => by
    rw [h.granting] at htgt
    exact bne_iff_ne.mp (Table.mem_keep.mp htgt).2
  service := fun st hst htype hgranted => ((h.service st).mp hst).2 ⟨htype, hgranted⟩
  history := ⟨[], (List.append_nil _).symm, fun _ he => absurd he List.not_mem_nil⟩

/-- And it stays so. -/
theorem Ended.foldl {config : Config} (h : Ended t base w) (rs : List Request) :
    Ended t base (rs.foldl (handle config) w) :=
  Run.foldl_inv (fun _ _ hw => inv_handle (fun _ _ hchange hv => hv.change hchange)
    (fun hv => ⟨hv.fresh, hv.granting, hv.service, hv.history⟩) hw) h rs

end Ended

/-- The cookies are made of random strings drawn before, each of them of its own. -/
structure Cookies (config : Config) (w : World) : Prop where
  drawn : ∀ tgt ∈ tickets Event.grantedTicket w.history,
    ∃ k < w.drawn, tgt.ticket = "TGC-" ++ config.random k
  distinct : ∀ tgt ∈ tickets Event.grantedTicket w.history,
    ∀ tgt' ∈ tickets Event.grantedTicket w.history, tgt.ticket = tgt'.ticket → tgt = tgt'

section Cookies

variable {config : Config} {c : Context} {w w' : World}

/-- Drawing more strings, and recording another event. -/
theorem Cookies.other (h : Cookies c.config w) {drawn : ℕ} (hle : w.drawn ≤ drawn)
    {history : List Entry}
    (hsame : tickets Event.grantedTicket history = tickets Event.grantedTicket w.history)
    (hw' : w'.drawn = drawn ∧ w'.history = history) : Cookies c.config w' := by
  obtain ⟨rfl, rfl⟩ := hw'
  refine ⟨fun tgt htgt => ?_, fun tgt htgt tgt' htgt' => ?_⟩
  · rw [hsame] at htgt
    obtain ⟨k, hk, hticket⟩ := h.drawn tgt htgt
    exact ⟨k, Nat.lt_of_lt_of_le hk hle, hticket⟩
  · rw [hsame] at htgt htgt'
    exact h.distinct tgt htgt tgt' htgt'

/-- **Every change keeps the cookies distinct, if the random strings are.** -/
theorem Cookies.change (hrandom : Function.Injective c.config.random) (h : Cookies c.config w)
    (hchange : Change c w w') : Cookies c.config w' := by
  cases hchange with
  | draw => exact h.other (Nat.le_succ _) rfl ⟨rfl, rfl⟩
  | setLoginTickets => exact h.other (Nat.le_refl _) rfl ⟨rfl, rfl⟩
  | authenticate => exact h.other (Nat.le_refl _) (tickets_snoc_none rfl) ⟨rfl, rfl⟩
  | @grant username extraAttributes =>
    let new := c.grantingTicket ("TGC-" ++ c.config.random w.drawn) username extraAttributes
      w.grantingTickets.nextId
    have hsnoc : tickets Event.grantedTicket (c.log w (.granted new)) =
        tickets Event.grantedTicket w.history ++ [new] := tickets_snoc_some rfl
    -- the new cookie is made of a string that no earlier one is made of
    have hne : ∀ tgt ∈ tickets Event.grantedTicket w.history, tgt.ticket ≠ new.ticket := by
      intro tgt htgt heq
      obtain ⟨k, hk, hticket⟩ := h.drawn tgt htgt
      have hsame : c.config.random k = c.config.random w.drawn :=
        (String.append_right_inj "TGC-").mp (hticket.symm.trans heq)
      exact absurd (hrandom hsame) (Nat.ne_of_lt hk)
    refine ⟨fun tgt htgt => ?_, fun tgt htgt tgt' htgt' heq => ?_⟩
    · rw [hsnoc] at htgt
      rcases List.mem_append.mp htgt with hold | hnew
      · obtain ⟨k, hk, hticket⟩ := h.drawn tgt hold
        exact ⟨k, Nat.lt_succ_of_lt hk, hticket⟩
      · rw [List.mem_singleton.mp hnew]
        exact ⟨w.drawn, Nat.lt_succ_self _, rfl⟩
    · rw [hsnoc] at htgt htgt'
      rcases List.mem_append.mp htgt with hold | hnew
      · rcases List.mem_append.mp htgt' with hold' | hnew'
        · exact h.distinct tgt hold tgt' hold' heq
        · rw [List.mem_singleton.mp hnew'] at heq
          exact absurd heq (hne tgt hold)
      · rcases List.mem_append.mp htgt' with hold' | hnew'
        · rw [List.mem_singleton.mp hnew] at heq
          exact absurd heq.symm (hne tgt' hold')
        · rw [List.mem_singleton.mp hnew, List.mem_singleton.mp hnew']
  | issue => exact h.other (Nat.le_succ _) (tickets_snoc_none rfl) ⟨rfl, rfl⟩
  | issueProxy => exact h.other (Nat.le_succ _) (tickets_snoc_none rfl) ⟨rfl, rfl⟩
  | grantProxy => exact h.other (Nat.le_add_right _ 2) (tickets_snoc_none rfl) ⟨rfl, rfl⟩
  | consume => exact h.other (Nat.le_refl _) rfl ⟨rfl, rfl⟩
  | validate => exact h.other (Nat.le_refl _) (tickets_snoc_none rfl) ⟨rfl, rfl⟩
  | destroy => exact h.other (Nat.le_refl _) (tickets_snoc_none rfl) ⟨rfl, rfl⟩
  | destroyServiceTicket => exact h.other (Nat.le_refl _) rfl ⟨rfl, rfl⟩
  | destroyProxyGrantingTickets => exact h.other (Nat.le_refl _) rfl ⟨rfl, rfl⟩

theorem cookies_run (hrandom : Function.Injective config.random) (rs : List Request) :
    Cookies config (run config rs) := by
  refine inv_run (fun c w w' hc hchange h => ?_) (fun _ _ h => ⟨h.drawn, h.distinct⟩) ?_ rs
  · subst hc
    exact h.change hrandom hchange
  · exact ⟨fun _ htgt => absurd htgt List.not_mem_nil, fun _ htgt => absurd htgt List.not_mem_nil⟩

end Cookies

/-- What is claimed of an entry after the logout of `t`: no ticket granted by `t` is
accepted, no ticket is issued on its cookie, and no proxy ticket through a proxy-granting
ticket that was obtained with a service ticket granted by `t`. -/
structure Over (t : TicketGrantingTicket) (history : List Entry) (e : Entry) : Prop where
  accepted : ∀ service st, e.event = .validated service st → st.grantedByTgtId ≠ some t.id
  cookie : e.request.endpoint = .getLogin → e.request.tgt = some t.ticket →
    ∀ st, e.event ≠ .issued st
  proxied : e.request.endpoint = .proxy → ∀ pt, e.event = .issued pt →
    ∀ pgt ∈ tickets Event.proxyGrantedTicket history,
      ∀ st ∈ tickets Event.issuedTicket history, st.id = pgt.serviceTicketId →
        st.grantedByTgtId = some t.id → pt.grantedByPgtId ≠ some pgt.id

/-- An entry in which no ticket granted by `t` is used is of that kind. -/
theorem over_of_unused {config : Config} (hrandom : Function.Injective config.random)
    {rs : List Request} {t : TicketGrantingTicket}
    (ht : t ∈ tickets Event.grantedTicket (run config rs).history) {e : Entry}
    (he : e ∈ (run config rs).history)
    (hunused : ∀ st, e.event.usedTicket = some st → st.grantedByTgtId ≠ some t.id) :
    Over t (run config rs).history e := by
  have hrec := recorded_run config rs
  obtain ⟨before, after, hhistory⟩ := List.append_of_mem he
  have horigin := (originates_run config rs before e after hhistory).issued
  have hearlier : ∀ {ρ : Type} {f : Event → Option ρ} {row : ρ}, row ∈ tickets f before →
      row ∈ tickets f (run config rs).history := by
    intro ρ f row hrow
    rw [hhistory]
    exact mem_tickets_append hrow _
  refine ⟨fun service st hvalidated => ?_, fun hendpoint hcookie st hissued => ?_,
    fun hendpoint pt hissued pgt hpgt st hst hderived hgranted heq => ?_⟩
  · exact hunused st (by rw [hvalidated]; rfl)
  · -- the cookie is that of the ticket-granting ticket it was issued on
    have hnot := hunused st (by rw [hissued]; rfl)
    cases horigin st hissued with
    | login hlogin => rw [hendpoint] at hlogin; cases hlogin
    | @cookie tgt _ _ hid htgt hname =>
      have hticket : tgt.ticket = t.ticket := Option.some.inj (hname.symm.trans hcookie)
      obtain rfl := (cookies_run hrandom rs).distinct tgt (hearlier htgt) t ht hticket
      exact hnot hid
    | proxy hproxy => rw [hendpoint] at hproxy; cases hproxy
  · -- and so is the proxy-granting ticket, and its service ticket
    have hnot := hunused pt (by rw [hissued]; rfl)
    cases horigin pt hissued with
    | login hlogin => rw [hendpoint] at hlogin; cases hlogin
    | cookie hcookie => rw [hendpoint] at hcookie; cases hcookie
    | @proxy pgt' st' _ _ hpt hid hpgt' hst' hderived' =>
      have hkey : pgt'.id = pgt.id := Option.some.inj (hpt.symm.trans heq)
      obtain rfl := hrec.proxyGranted.numbered.eq_of_key (hearlier hpgt') hpgt hkey
      obtain rfl := hrec.issued.numbered.eq_of_key (hearlier hst') hst
        (hderived'.trans hderived.symm)
      exact hnot (hid.trans hgranted)

/-- **A logout is final.**  After a logout whose cookie names `t` and which goes through,
whatever requests follow: no ticket granted by `t` is accepted, none is issued on its cookie,
and no proxy ticket through a proxy-granting ticket obtained with one of its service tickets. -/
theorem logout_final {config : Config} (hrandom : Function.Injective config.random)
    {rs : List Request} {r : Request} {t : TicketGrantingTicket} {response : Response}
    (hendpoint : r.endpoint = .logout) (hcookie : findGrantingTicket (run config rs) r.tgt = some t)
    (hdone : answer config (run config rs) r = .ok response) (later : List Request) :
    ∃ more, (run config (rs ++ r :: later)).history = (run config (rs ++ [r])).history ++ more ∧
      ∀ e ∈ more, Over t (run config (rs ++ r :: later)).history e := by
  have hrow : t ∈ (run config rs).grantingTickets.rows := List.mem_of_find?_eq_some hcookie
  have hsplit : run config (rs ++ r :: later) =
      later.foldl (handle config) (run config (rs ++ [r])) := by
    simp [run]
  have hafter : run config (rs ++ [r]) = handle config (run config rs) r := by
    simp [run]
  have hended : Ended t (run config (rs ++ [r])).history (run config (rs ++ r :: later)) := by
    rw [hsplit, hafter]
    exact ((loggedOut_of_answer hendpoint hcookie hdone).ended hrow).foldl later
  have ht : t ∈ tickets Event.grantedTicket (run config (rs ++ r :: later)).history := by
    obtain ⟨more, hmore⟩ := history_foldl config (run config rs) (r :: later)
    have hgranted := (recorded_run config rs).granted.rows t hrow
    have hwhole : run config (rs ++ r :: later) =
        (r :: later).foldl (handle config) (run config rs) := by
      rw [run, run, List.foldl_append]
    rw [hwhole, hmore]
    exact mem_tickets_append hgranted more
  obtain ⟨more, hmore, hunused⟩ := hended.history
  refine ⟨more, hmore, fun e he => over_of_unused hrandom ht ?_ (hunused e he)⟩
  rw [hmore]
  exact List.mem_append_right _ he

/-- These settings, where the random strings are `x`, `xx`, and so on. -/
def countingConfig : Config :=
  .default (fun _ => some ⟨some "/", none⟩) fun n => String.ofList (List.replicate n 'x')

theorem injective_countingConfig : Function.Injective countingConfig.random := by
  intro m n h
  have hlength := congrArg String.length h
  simpa [countingConfig, Config.default] using hlength

/-- A login for a service. -/
def loginOnce : List Request :=
  [{ endpoint := .postLoginTicket, now := 0 },
   { endpoint := .postLogin, now := 10, service := some "http://app.example",
     username := some "an", lt := some "LT-", auth := [fun _ _ _ => .accepted []] }]

/-- Its ticket-granting ticket. -/
def onlyTicket : TicketGrantingTicket where
  id := 1
  ticket := "TGC-xx"
  createdOn := 10
  clientHostname := "127.0.0.1"
  username := "an"
  extraAttributes := []

/-- After the logout the service presents its ticket, in vain. -/
theorem logout_final_loginOnce :
    ∃ more, (run countingConfig (loginOnce ++
        [{ endpoint := .logout, now := 20, tgt := some "TGC-xx" },
         { endpoint := .validate, now := 21, service := some "http://app.example",
           ticket := some "ST-xxx" }])).history =
      (run countingConfig (loginOnce ++
        [{ endpoint := .logout, now := 20, tgt := some "TGC-xx" }])).history ++ more ∧
      ∀ e ∈ more, Over onlyTicket (run countingConfig (loginOnce ++
        [{ endpoint := .logout, now := 20, tgt := some "TGC-xx" },
         { endpoint := .validate, now := 21, service := some "http://app.example",
           ticket := some "ST-xxx" }])).history e :=
  @logout_final countingConfig injective_countingConfig loginOnce
    { endpoint := .logout, now := 20, tgt := some "TGC-xx" } onlyTicket
    (.page 200 (some (.successLoggedOut false)) "LT-xxxx") rfl (by decide +kernel)
    (by decide +kernel) _

/-! ### Its proxy-granting tickets -/

/-- The service ticket of `pgt` was granted by `t`. -/
def OwnedBy (w : World) (t : TicketGrantingTicket) (pgt : ProxyGrantingTicket) : Prop :=
  ∃ st, serviceTicketOf w pgt = some st ∧ st.grantedByTgtId = some t.id

/-- Of the proxy-granting tickets, exactly those of `t` are gone. -/
def ExactLogout (t : TicketGrantingTicket) (w w' : World) : Prop :=
  ∀ pgt ∈ w.proxyGrantingTickets.rows, pgt ∈ w'.proxyGrantingTickets.rows ↔ ¬ OwnedBy w t pgt

/-- No proxy-granting ticket has a service ticket of the user of `t`. -/
def UserHasNone (w : World) (t : TicketGrantingTicket) : Prop :=
  ∀ pgt ∈ w.proxyGrantingTickets.rows, ∀ st, serviceTicketOf w pgt = some st →
    st.username ≠ t.username

section Exact

variable {config : Config} {w w' : World} {t : TicketGrantingTicket} {pgt : ProxyGrantingTicket}
  {st : SPTicket}

/-- The association finds the service ticket with the key, wherever it stands. -/
theorem serviceTicketOf_iff : serviceTicketOf w pgt = some st ↔
    st ∈ w.serviceTickets.rows ∧ st.type = .serviceTicket ∧ st.id = pgt.serviceTicketId := by
  constructor
  · exact serviceTicketOf_eq_some
  · rintro ⟨hrow, htype, hid⟩
    cases hfind : serviceTicketOf w pgt with
    | none =>
      have hnot := List.find?_eq_none.mp hfind st hrow
      simp [htype, hid] at hnot
    | some st' =>
      obtain ⟨hrow', -, hid'⟩ := serviceTicketOf_eq_some hfind
      rw [w.serviceTickets.eq_of_key hrow' hrow (hid'.trans hid.symm)]

/-- After the logout it finds those that `t` did not grant. -/
theorem LoggedOut.serviceTicketOf_iff (h : LoggedOut t w w') : serviceTicketOf w' pgt = some st ↔
    serviceTicketOf w pgt = some st ∧ st.grantedByTgtId ≠ some t.id := by
  rw [Cas.serviceTicketOf_iff, Cas.serviceTicketOf_iff, h.service]
  constructor
  · rintro ⟨⟨hrow, hnot⟩, htype, hid⟩
    exact ⟨⟨hrow, htype, hid⟩, fun hgranted => hnot ⟨htype, hgranted⟩⟩
  · rintro ⟨⟨hrow, htype, hid⟩, hnot⟩
    exact ⟨⟨hrow, fun hgranted => hnot hgranted.2⟩, htype, hid⟩

/-- A service ticket is one of the user of the session that granted it. -/
theorem username_of_granted {rs : List Request} (ht : t ∈ (run config rs).grantingTickets.rows)
    (hst : st ∈ (run config rs).serviceTickets.rows) (hgranted : st.grantedByTgtId = some t.id) :
    st.username = t.username := by
  have hsound := sound_run config rs
  obtain ⟨tgt, ⟨n, r, -, -, -, hlogged⟩, husername, hid, -⟩ := hsound.issued st hst
  obtain ⟨n', r', -, -, -, hlogged'⟩ := hsound.granted t ht
  have hkey : tgt.id = t.id := Option.some.inj (hid.symm.trans hgranted)
  obtain rfl := (recorded_run config rs).granted.numbered.eq_of_key
    (mem_grantedTickets.mpr ⟨n, r, hlogged⟩) (mem_grantedTickets.mpr ⟨n', r', hlogged'⟩) hkey
  exact husername

/-- **A logout that goes through removes exactly its own proxy-granting tickets iff there
are none of its user.**  Its own are left behind, and those of the user's other sessions go. -/
theorem exactLogout_iff {rs : List Request} {r : Request} {response : Response}
    (hendpoint : r.endpoint = .logout) (hcookie : findGrantingTicket (run config rs) r.tgt = some t)
    (hdone : answer config (run config rs) r = .ok response) :
    ExactLogout t (run config rs) (handle config (run config rs) r) ↔
      UserHasNone (run config rs) t := by
  have hrow : t ∈ (run config rs).grantingTickets.rows := List.mem_of_find?_eq_some hcookie
  have hout := loggedOut_of_answer hendpoint hcookie hdone
  constructor
  · intro hexact pgt hpgt st hst husername
    by_cases hgranted : st.grantedByTgtId = some t.id
    · -- one of its own: the service ticket is gone, and the join does not find it
      have hkept := (hout.proxyGranting pgt).mpr ⟨hpgt, fun st' hst' => by
        obtain ⟨hst'', hnot⟩ := hout.serviceTicketOf_iff.mp hst'
        obtain rfl := Option.some.inj (hst.symm.trans hst'')
        exact absurd hgranted hnot⟩
      exact (hexact pgt hpgt).mp hkept ⟨st, hst, hgranted⟩
    · -- one of another session: the join finds it
      have hother : ¬ OwnedBy (run config rs) t pgt := by
        rintro ⟨st', hst', hgranted'⟩
        obtain rfl := Option.some.inj (hst.symm.trans hst')
        exact hgranted hgranted'
      have hkept := (hexact pgt hpgt).mpr hother
      exact ((hout.proxyGranting pgt).mp hkept).2 st
        (hout.serviceTicketOf_iff.mpr ⟨hst, hgranted⟩) husername
  · intro hnone pgt hpgt
    constructor
    · rintro - ⟨st, hst, hgranted⟩
      have husername := username_of_granted hrow (serviceTicketOf_eq_some hst).1 hgranted
      exact hnone pgt hpgt st hst husername
    · intro _
      refine (hout.proxyGranting pgt).mpr ⟨hpgt, fun st hst => ?_⟩
      exact hnone pgt hpgt st (hout.serviceTicketOf_iff.mp hst).1

end Exact

/-- Two sessions of one user, each of which has got a proxy-granting ticket. -/
def twoSessions : List Request :=
  [{ endpoint := .postLoginTicket, now := 0 },
   { endpoint := .postLogin, now := 10, service := some "http://app.example",
     username := some "an", lt := some "LT-0", auth := [fun _ _ _ => .accepted []] },
   { endpoint := .serviceValidate, now := 20, service := some "http://app.example",
     ticket := some "ST-3", pgtUrl := some "https://app.example/callback" },
   { endpoint := .postLogin, now := 30, service := some "http://app.example",
     username := some "an", lt := some "LT-1", auth := [fun _ _ _ => .accepted []] },
   { endpoint := .serviceValidate, now := 40, service := some "http://app.example",
     ticket := some "ST-8", pgtUrl := some "https://app.example/callback" }]

/-- The logout of the first of them. -/
def firstLogsOut : Request := { endpoint := .logout, now := 50, tgt := some "TGC-2" }

/-- Its ticket-granting ticket. -/
def firstTicket : TicketGrantingTicket where
  id := 1
  ticket := "TGC-2"
  createdOn := 10
  clientHostname := "127.0.0.1"
  username := "an"
  extraAttributes := []

/-- The logout goes through, leaves the proxy-granting ticket of its own session, and
removes that of the other. -/
theorem other_session_loses_ticket :
    answer plainConfig (run plainConfig twoSessions) firstLogsOut =
        .ok (.page 200 (some (.successLoggedOut false)) "LT-11") ∧
      (run plainConfig twoSessions).proxyGrantingTickets.rows.map (fun pgt => pgt.ticket) =
        ["PGT-4", "PGT-9"] ∧
      (handle plainConfig (run plainConfig twoSessions) firstLogsOut).proxyGrantingTickets.rows.map
        (fun pgt => pgt.ticket) = ["PGT-4"] ∧
      ¬ ExactLogout firstTicket (run plainConfig twoSessions)
        (handle plainConfig (run plainConfig twoSessions) firstLogsOut) := by
  refine ⟨by decide +kernel, by decide +kernel, by decide +kernel, fun hexact => ?_⟩
  -- the proxy-granting ticket of the first session, whose service ticket has the key 1
  let own : ProxyGrantingTicket := ⟨1, "PGT-4", 20, "127.0.0.1", "PGTIOU-5", 1⟩
  let st : SPTicket := ⟨1, "ST-3", "http://app.example", 10, some 20, "127.0.0.1", "an",
    .serviceTicket, none, some 1⟩
  have hrow : own ∈ (run plainConfig twoSessions).proxyGrantingTickets.rows := by decide +kernel
  have hleft : own ∈ (handle plainConfig (run plainConfig twoSessions)
      firstLogsOut).proxyGrantingTickets.rows := by decide +kernel
  have hst : serviceTicketOf (run plainConfig twoSessions) own = some st := by decide +kernel
  exact (hexact own hrow).mp hleft ⟨st, hst, rfl⟩

/-- The condition fails for this logout. -/
theorem exactLogout_twoSessions :
    ExactLogout firstTicket (run plainConfig twoSessions)
        (handle plainConfig (run plainConfig twoSessions) firstLogsOut) ↔
      UserHasNone (run plainConfig twoSessions) firstTicket :=
  @exactLogout_iff plainConfig firstTicket twoSessions firstLogsOut
    (.page 200 (some (.successLoggedOut false)) "LT-11") rfl (by decide +kernel)
    (by decide +kernel)

end BkPlatform.Cas
