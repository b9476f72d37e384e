import BkPlatform.Lib.Pieces
import BkPlatform.Lib.UriSyntax
import BkPlatform.Cas.Parts

/-!
# The URL with the ticket

`service_uri_with_ticket` puts the ticket behind the service as it is written.  It looks for a
`?` in the whole of it, and asks the parsed URI for the query.  Behind a fragment the ticket
becomes a part of the fragment, and a `?` in the fragment, or in what is not hierarchical, is
not followed by a query.  What comes behind blanks at the end is not a URI.

## Main definitions

* `uriParse` — `URI.parse`.
* `queryParams` — the parameters of a query.
* `Carries` — the browser is sent to the service, with the ticket as the last parameter.

## Main results

* `carries_iff` — **exactly when the redirect carries the ticket.**
-/

namespace BkPlatform.Cas

open UriSyntax

/-! ### The parsed URI -/

section TicketUri

-- the authorities that are hosts, and the host that an authority names
variable (server : Bool → List Char → Bool) (host : List Char → List Char)

/-- `URI.parse`. -/
def uriParse (s : String) : Option Uri :=
  (parse server s.toList).map fun u => ⟨u.path.map String.ofList, u.query.map String.ofList⟩

/-- The parameters of a query. -/
def queryParams : Option (List Char) → List (List Char)
  | none => []
  | some [] => []
  | some query => query.splitOn '&'

/-- The parameter with the ticket. -/
def ticketParam (ticket : String) : List Char := ("ticket=" ++ ticket).toList

/-- **The redirect carries the ticket in the query**: it is the same URI, with the parameter of
the ticket behind the others. -/
def Carries (service ticket : String) : Prop :=
  ∃ redirect u u', serviceUriWithTicket (uriParse server) service ticket = .ok redirect ∧
    parse server service.toList = some u ∧ parse server redirect.toList = some u' ∧
    u'.scheme = u.scheme ∧ u'.authority.map host = u.authority.map host ∧ u'.path = u.path ∧
    u'.fragment = u.fragment ∧ queryParams u'.query = queryParams u.query ++ [ticketParam ticket]

/-- The ticket may stand in a query, as the value of one parameter. -/
def IsParamValue (ticket : List Char) : Prop := Escaped isUric ticket ∧ '&' ∉ ticket

/-- No blanks at the end, except where there are no others. -/
def EndsInText (service : List Char) : Prop :=
  service.getLast?.any isBlank = true → service.all isBlank = true

instance (ticket : List Char) : Decidable (IsParamValue ticket) :=
  inferInstanceAs (Decidable (_ ∧ _))

instance (service : List Char) : Decidable (EndsInText service) :=
  inferInstanceAs (Decidable (_ → _))

/-! ### The parameters -/

/-- A query with one parameter more. -/
def extended (query : Option (List Char)) (param : List Char) : List Char :=
  match query with
  | none => param
  | some [] => param
  | some query => query ++ '&' :: param

theorem queryParams_extended (query : Option (List Char)) {param : List Char} (hne : param ≠ [])
    (hparam : '&' ∉ param) :
    queryParams (some (extended query param)) = queryParams query ++ [param] := by
  have hsome : ∀ cs : List Char, cs ≠ [] → queryParams (some cs) = cs.splitOn '&' := by
    intro cs hcs
    cases cs with
    | nil => exact absurd rfl hcs
    | cons c cs => rfl
  unfold extended
  split
  · rw [hsome _ hne, List.splitOn_eq_singleton hparam]
    rfl
  · rw [hsome _ hne, List.splitOn_eq_singleton hparam]
    rfl
  · next query hquery =>
    have hne' : query ≠ [] := fun h => hquery h
    rw [hsome _ (by simp), List.splitOn_append_cons_self, List.splitOn_eq_singleton hparam,
      hsome _ hne']

/-- A query that has one parameter more is the other one, extended by it. -/
theorem eq_extended {query query' : Option (List Char)} {param : List Char}
    (h : queryParams query' = queryParams query ++ [param]) :
    '&' ∉ param ∧ query' = some (extended query param) := by
  unfold queryParams at h
  split at h
  · exact absurd h.symm (by simp)
  · exact absurd h.symm (by simp)
  · next text _ =>
    have hparam : param ∈ text.splitOn '&' := by
      rw [h]
      exact List.mem_append_right _ List.mem_cons_self
    have htext : text = ['&'].intercalate (queryParams query ++ [param]) := by
      rw [← @List.intercalate_splitOn _ text _ _ '&', h]
      rfl
    refine ⟨Pieces.not_mem_of_mem_splitOn hparam, ?_⟩
    rw [htext, intercalate_snoc]
    unfold extended queryParams
    split
    · rfl
    · rfl
    · rw [if_neg (List.splitOn_ne_nil _ _), List.intercalate_splitOn]

/-! ### The redirect -/

variable {server}

/-- What is put between the service and the parameter. -/
def querySeparator : Option (List Char) → String
  | none => "?"
  | some [] => ""
  | some _ => "&"

theorem toList_glued (service sep ticket : String) :
    (service ++ sep ++ "ticket=" ++ ticket).toList =
      service.toList ++ sep.toList ++ ticketParam ticket := by
  rw [ticketParam, String.append_assoc, String.toList_append, String.toList_append]

/-- The parameter stands at the end of the redirect. -/
theorem redirect_eq {service ticket redirect : String}
    (h : serviceUriWithTicket (uriParse server) service ticket = .ok redirect) :
    ∃ sep, redirect = service ++ sep ++ "ticket=" ++ ticket := by
  unfold serviceUriWithTicket at h
  split at h
  · cases h
  · split at h
    · split at h
      · cases h
      · exact ⟨_, (Except.ok.inj h).symm⟩
    · exact ⟨_, (Except.ok.inj h).symm⟩

/-- The redirect, if a `?` is followed by a query. -/
theorem serviceUriWithTicket_eq_ok {service : String} {u : UriSyntax.Uri}
    (hparse : parse server service.toList = some u)
    (hquery : '?' ∈ service.toList ↔ u.query.isSome = true) (ticket : String) :
    serviceUriWithTicket (uriParse server) service ticket =
      .ok (service ++ querySeparator u.query ++ "ticket=" ++ ticket) := by
  have huri : uriParse server service =
      some ⟨u.path.map String.ofList, u.query.map String.ofList⟩ := by
    rw [uriParse, hparse, Option.map_some]
  rw [serviceUriWithTicket, huri]
  cases hq : u.query with
  | none =>
    rw [hq] at hquery
    have hnot : ¬ service.toList.contains '?' = true := fun h =>
      absurd (hquery.mp (List.contains_iff_mem.mp h)) (by decide)
    simp only [if_neg hnot, querySeparator]
  | some query =>
    rw [hq] at hquery
    have hmem : service.toList.contains '?' = true :=
      List.contains_iff_mem.mpr (hquery.mpr rfl)
    simp only [if_pos hmem, Option.map_some]
    cases query with
    | nil => rw [if_pos rfl, querySeparator]
    | cons c query =>
      have hne : ¬ String.ofList (c :: query) = "" := fun h =>
        absurd (congrArg String.toList h) (by rw [String.toList_ofList]; exact List.cons_ne_nil _ _)
      rw [if_neg hne, querySeparator]
      exact fun h => nomatch h

/-! ### Queries that may be extended -/

/-- The parameter may stand in a query if the ticket may. -/
theorem escaped_ticketParam {ticket : String} :
    Escaped isUric (ticketParam ticket) ↔ Escaped isUric ticket.toList := by
  rw [ticketParam, String.toList_append]
  exact escaped_append (by decide)

theorem escaped_extended {query : Option (List Char)} {param : List Char}
    (hquery : ∀ q ∈ query, Escaped isUric q) :
    Escaped isUric (extended query param) ↔ Escaped isUric param := by
  unfold extended
  split
  · exact Iff.rfl
  · exact Iff.rfl
  · next q _ =>
    rw [escaped_append (hquery q rfl)]
    exact @escaped_append isUric ['&'] param rfl

/-- The query with its separator and the parameter. -/
theorem behind_extended (query : Option (List Char)) (param : List Char) :
    behind ['?'] (some (extended query param)) =
      behind ['?'] query ++ (querySeparator query).toList ++ param := by
  unfold extended querySeparator
  split
  · rfl
  · rfl
  · simp [behind]

theorem mem_ticketParam (ticket : String) : '=' ∈ ticketParam ticket := by
  rw [ticketParam, String.toList_append]
  exact List.mem_append_left _ (by decide)

theorem amp_not_mem_ticketParam {ticket : String} :
    '&' ∉ ticketParam ticket ↔ '&' ∉ ticket.toList := by
  rw [ticketParam, String.toList_append, List.mem_append, not_or]
  exact and_iff_right (by decide)

/-! ### When the redirect carries the ticket -/

section Carries

variable {u : UriSyntax.Uri} {service ticket : String}

/-- An accepted service without blanks at its end. -/
theorem exists_lead (hparse : parse server service.toList = some u)
    (hends : EndsInText service.toList) :
    ∃ lead, (∀ c ∈ lead, isBlank c = true) ∧ service.toList = lead ++ u.text := by
  obtain ⟨hwf, lead, trail, hlead, htrail, hservice⟩ := parse_eq_some_iff.mp hparse
  rcases List.eq_nil_or_concat trail with rfl | ⟨trail, last, rfl⟩
  · exact ⟨lead, hlead, by rw [hservice, List.append_nil]⟩
  · -- blanks and nothing else
    have hlast : service.toList.getLast?.any isBlank = true := by
      rw [hservice, List.concat_eq_append, ← List.append_assoc, List.getLast?_concat,
        Option.any_some]
      exact htrail last (by simp)
    have hall := List.all_eq_true.mp (hends hlast)
    have htext : u.text = [] := by
      refine List.eq_nil_iff_forall_not_mem.mpr fun c hc => ?_
      have hblank := hall c (by rw [hservice]; simp [hc])
      rw [hwf.not_blank c hc] at hblank
      cases hblank
    exact ⟨service.toList, hall, by rw [htext, List.append_nil]⟩

/-- The ticket gets into the query of a hierarchical URI without a fragment. -/
theorem carries_of_conditions (hparse : parse server service.toList = some u)
    (hpath : u.path.isSome = true) (hfragment : u.fragment = none)
    (hends : EndsInText service.toList) (hticket : IsParamValue ticket.toList) :
    Carries server host service ticket := by
  obtain ⟨lead, hlead, hservice⟩ := exists_lead hparse hends
  have hwf := (parse_eq_some_iff.mp hparse).1
  have hbase := hwf.question_not_mem hpath
  have htext := UriSyntax.Uri.text_eq hpath hfragment
  have hquery : '?' ∈ service.toList ↔ u.query.isSome = true := by
    rw [hservice, htext]
    cases u.query with
    | none =>
      refine iff_of_false (fun hmem => ?_) (by decide)
      rw [behind, List.append_nil] at hmem
      rcases List.mem_append.mp hmem with hmem | hmem
      · exact absurd (hlead _ hmem) (by decide)
      · exact hbase hmem
    | some query => exact iff_of_true (by simp [behind]) rfl
  have hparam : Escaped isUric (extended u.query (ticketParam ticket)) :=
    (escaped_extended hwf.query).mpr (escaped_ticketParam.mpr hticket.1)
  have hredirect : (service ++ querySeparator u.query ++ "ticket=" ++ ticket).toList =
      lead ++ (u.withQuery (extended u.query (ticketParam ticket))).text ++ [] := by
    rw [toList_glued, hservice, UriSyntax.Uri.text_withQuery hpath hfragment, behind_extended,
      htext]
    simp only [List.append_assoc, List.append_nil]
  have hparse' := parse_eq_some_iff.mpr ⟨hwf.withQuery hparam, lead, [], hlead,
    fun _ h => absurd h List.not_mem_nil, hredirect⟩
  refine ⟨_, u, _, serviceUriWithTicket_eq_ok hparse hquery ticket, hparse, hparse', by simp,
    by simp, by simp, by simp, ?_⟩
  rw [UriSyntax.Uri.query_withQuery hpath]
  exact queryParams_extended u.query (List.ne_nil_of_mem (mem_ticketParam ticket))
    (amp_not_mem_ticketParam.mpr hticket.2)

/-- Behind a fragment the ticket gets into the fragment. -/
theorem fragment_of_carries (h : Carries server host service ticket)
    (hparse : parse server service.toList = some u) : u.fragment = none := by
  obtain ⟨redirect, u₀, u', hredirect, hparse₀, hparse', -, -, -, hfragment, -⟩ := h
  obtain rfl := Option.some.inj (hparse.symm.trans hparse₀)
  obtain ⟨sep, rfl⟩ := redirect_eq hredirect
  obtain ⟨hwf, lead, trail, hlead, -, hservice⟩ := parse_eq_some_iff.mp hparse
  obtain ⟨hwf', lead', trail', hlead', htrail', htext'⟩ := parse_eq_some_iff.mp hparse'
  cases hf : u.fragment with
  | none => rfl
  | some fragment =>
    rw [hf] at hfragment
    have hcut := hwf.cut_hash hlead hf (trail ++ sep.toList ++ ticketParam ticket)
    have hcut' := hwf'.cut_hash hlead' hfragment trail'
    rw [toList_glued, hservice] at htext'
    simp only [List.append_assoc] at hcut hcut' htext'
    rw [← htext', hcut] at hcut'
    have htrail : trail ++ (sep.toList ++ ticketParam ticket) = trail' :=
      List.append_cancel_left (Option.some.inj hcut')
    have hblank := htrail' '=' (by
      rw [← htrail]
      exact List.mem_append_right _ (List.mem_append_right _ (mem_ticketParam ticket)))
    exact absurd hblank (by decide)

/-- Behind blanks at the end there is no URI. -/
theorem endsInText_of_carries (h : Carries server host service ticket) :
    EndsInText service.toList := by
  obtain ⟨redirect, u, u', hredirect, hparse, hparse', -⟩ := h
  obtain ⟨sep, rfl⟩ := redirect_eq hredirect
  obtain ⟨hwf, lead, trail, hlead, htrail, hservice⟩ := parse_eq_some_iff.mp hparse
  obtain ⟨hwf', lead', trail', hlead', htrail', htext'⟩ := parse_eq_some_iff.mp hparse'
  intro hlast
  by_cases hne : u.text = []
  · -- nothing but blanks
    rw [hservice, hne, List.append_nil]
    exact List.all_eq_true.mpr (List.forall_mem_append.mpr ⟨hlead, htrail⟩)
  · have hmem := @mem_strip lead u.text trail (sep.toList ++ ticketParam ticket) hlead hne
      hwf.not_blank ⟨'=', List.mem_append_right _ (mem_ticketParam ticket), by decide⟩
    have hstrip := hwf'.strip_text hlead' htrail'
    rw [← htext', toList_glued, hservice] at hstrip
    simp only [List.append_assoc] at hmem hstrip
    rw [hstrip] at hmem
    have htrailNil : trail = [] := List.eq_nil_iff_forall_not_mem.mpr fun c hc => by
      have hnot := hwf'.not_blank c (hmem c hc)
      rw [htrail c hc] at hnot
      cases hnot
    rw [hservice, htrailNil, List.append_nil, List.getLast?_append_of_ne_nil _ hne,
      List.getLast?_eq_some_getLast hne, Option.any_some,
      hwf.not_blank _ (List.getLast_mem hne)] at hlast
    cases hlast

/-- What does not get into the query is not a parameter of it. -/
theorem isParamValue_of_carries (h : Carries server host service ticket) :
    IsParamValue ticket.toList ∧
      ∀ u, parse server service.toList = some u → u.path.isSome = true := by
  obtain ⟨redirect, u, u', -, hparse, hparse', -, -, hpath, -, hparams⟩ := h
  have hwf := (parse_eq_some_iff.mp hparse).1
  have hwf' := (parse_eq_some_iff.mp hparse').1
  obtain ⟨hamp, hquery⟩ := eq_extended hparams
  refine ⟨⟨?_, amp_not_mem_ticketParam.mp hamp⟩, fun u₀ hu₀ => ?_⟩
  · exact escaped_ticketParam.mp ((escaped_extended hwf.query).mp (hwf'.query _ hquery))
  · obtain rfl := Option.some.inj (hparse.symm.trans hu₀)
    rw [← hpath]
    exact UriSyntax.Uri.isSome_path_of_query hquery

/-- **Exactly when the redirect carries the ticket**: the service is hierarchical and has no
fragment, there are no blanks at its end, and the ticket may stand in a query. -/
theorem carries_iff (hparse : parse server service.toList = some u) (ticket : String) :
    Carries server host service ticket ↔
      u.path.isSome = true ∧ u.fragment = none ∧ EndsInText service.toList ∧
        IsParamValue ticket.toList := by
  constructor
  · intro h
    obtain ⟨hticket, hpath⟩ := isParamValue_of_carries host h
    exact ⟨hpath u hparse, fragment_of_carries host h hparse, endsInText_of_carries host h, hticket⟩
  · rintro ⟨hpath, hfragment, hends, hticket⟩
    exact carries_of_conditions host hparse hpath hfragment hends hticket

end Carries

/-- Hosts whose names consist of letters. -/
def letters (_absolute : Bool) (authority : List Char) : Bool := authority.all Char.isAlpha

/-- A service with a query. -/
theorem carries_query : Carries letters id "http://a/p?x=1" "ST-1" :=
  (@carries_iff letters id ⟨some "http".toList, .hierPart (some "a".toList) "/p".toList
    (some "x=1".toList), none⟩ "http://a/p?x=1" (by decide +kernel) "ST-1").mpr
    ⟨by decide, by decide, by decide, by decide⟩

/-- A service with a fragment: the ticket does not get into the query, and where there is a `?`
in the fragment the redirect fails. -/
theorem fragment_takes_ticket : (parse letters "http://a/p#f".toList).isSome = true ∧
    ¬ Carries letters id "http://a/p#f" "ST-1" ∧
    (parse letters "http://a/p#?".toList).isSome = true ∧
    serviceUriWithTicket (uriParse letters) "http://a/p#?" "ST-1" = .error .noMethodError := by
  refine ⟨by decide +kernel, fun h => ?_, by decide +kernel, by decide +kernel⟩
  have hparse : parse letters "http://a/p#f".toList = some ⟨some "http".toList,
    .hierPart (some "a".toList) "/p".toList none, some "f".toList⟩ := by decide +kernel
  cases fragment_of_carries id h hparse

end TicketUri

end BkPlatform.Cas
