import BkPlatform.Cas.PlainServices
import BkPlatform.Cas.Redeeming

/-!
# Services that are taken for one another

The parameters of the protocol are looked for anywhere in a service: in its path, in the
value of another parameter, at the end of a longer name, behind the `#`.  Whatever stands
behind such a place up to the next `&` is not compared.  As any service has such a place,
or can be given one at its end, the ticket of any service is accepted for another.  Among
plain services it is not.

## Main definitions

* `Hidden` — a fragment stands where it is not compared.

## Main results

* `acceptedFor_iff` — what the check of a validation comes to.
* `eq_of_settled` — services with nothing to clean are told apart.
* `confusesNone_iff` — **exactly whose ticket is accepted for no other service**, and that
  plain services are told apart.
-/

namespace BkPlatform.Cas

open RubyString Occurrence

/-- Login and validation clean their service, and the comparison cleans both again. -/
theorem acceptedFor_iff {u v : String} {st : SPTicket} {r : Request}
    (hst : st.service = cleanServiceUrl u) (hr : r.service = some v) :
    PassesCheck r st ↔ AcceptedFor u v := by
  have hclean : r.cleanService = some (cleanServiceUrl v) := by
    rw [Request.cleanService, hr, Option.map_some]
  rw [PassesCheck, hclean]
  simp only [Option.some.injEq, exists_eq_left', SPTicket.matchesService, beq_iff_eq, hst,
    AcceptedFor]

/-! ### The fragment tells services apart -/

theorem dropEnd_append (f b : List Char) :
    dropEnd (f ++ b) = if dropEnd b = [] then dropEnd f else f ++ dropEnd b := by
  unfold dropEnd List.rdropWhile
  rw [List.reverse_append, List.dropWhile_append]
  by_cases h : b.reverse.dropWhile isTrailing = []
  · simp [h]
  · simp [h]

theorem length_dropEnd_append_le (f b : List Char) :
    (dropEnd (f ++ b)).length ≤ f.length + (dropEnd b).length := by
  rw [dropEnd_append]
  split
  · next h =>
    rw [h]
    exact (List.rdropWhile_prefix isTrailing f).length_le
  · rw [List.length_append]

theorem length_dropEnd_le_append (f b : List Char) :
    (dropEnd b).length ≤ (dropEnd (f ++ b)).length := by
  rw [dropEnd_append]
  split
  · next h => simp [h]
  · rw [List.length_append]
    omega

/-- A letter ends what is dropped. -/
theorem length_dropEnd_letter (f b : List Char) :
    (dropEnd (f ++ 'x' :: b)).length = f.length + 1 + (dropEnd b).length := by
  have hletter : dropEnd ['x'] = ['x'] := by decide
  have htail : dropEnd ('x' :: b) = 'x' :: dropEnd b := by
    rw [← List.singleton_append, dropEnd_append, hletter]
    split
    · next h => rw [h]
    · rfl
  rw [dropEnd_append, htail, if_neg (List.cons_ne_nil _ _), List.length_append, List.length_cons]
  omega

theorem fragmentOf_suffix (cs : List Char) : ∃ f, cs = f ++ fragmentOf cs := by
  obtain ⟨f, hf⟩ := (List.drop_suffix 1 _).trans (List.dropWhile_suffix fun c => c != '#')
  exact ⟨f, hf.symm⟩

/-- **A fragment that is inserted shows**, wherever it is. -/
theorem length_fragment_lt {a t b : List Char} (ht : '#' ∉ t) :
    (dropEnd (fragmentOf (a ++ b))).length <
      (dropEnd (fragmentOf (a ++ (t ++ '#' :: 'x' :: b)))).length := by
  by_cases ha : '#' ∈ a
  · -- it stands in the fragment that was there
    obtain ⟨a₁, a₂, rfl, hfree⟩ := List.eq_append_cons_of_mem ha
    rw [List.append_assoc, List.append_assoc, List.cons_append, List.cons_append,
      fragmentOf_hash hfree, fragmentOf_hash hfree]
    have hle := length_dropEnd_append_le a₂ b
    have hletter := length_dropEnd_letter (a₂ ++ (t ++ ['#'])) b
    have hword : a₂ ++ (t ++ '#' :: 'x' :: b) = a₂ ++ (t ++ ['#']) ++ 'x' :: b := by simp
    rw [hword, hletter]
    simp only [List.length_append, List.length_cons, List.length_nil]
    omega
  · rw [fragmentOf_append ha, fragmentOf_append ha, fragmentOf_hash ht]
    obtain ⟨f, hf⟩ := fragmentOf_suffix b
    have hle := length_dropEnd_le_append f (fragmentOf b)
    rw [← hf] at hle
    have hletter := length_dropEnd_letter [] b
    rw [List.nil_append, List.length_nil] at hletter
    omega

/-! ### A place to insert it -/

/-- A text with a place behind which a fragment changes nothing: the `#` and a letter. -/
structure Hidden (u v : List Char) : Prop where
  cleaned : subParam "service" v = subParam "service" u
  inserted : ∃ a t b, '#' ∉ t ∧ ' ' ∉ t ∧ u = a ++ b ∧ v = a ++ (t ++ '#' :: 'x' :: b)

/-- The fragment goes behind the first `service=`, or with one to the end. -/
theorem exists_hidden (cs : List Char) : ∃ v, Hidden cs v := by
  by_cases h : HasParam "service" cs
  · obtain ⟨a, b, rfl, hfirst⟩ := exists_first h
    refine ⟨a ++ paramWord "service" ++ ('#' :: 'x' :: b), ?_, a ++ paramWord "service", [], b,
      List.not_mem_nil, List.not_mem_nil, rfl, rfl⟩
    rw [subParam_first (by decide) hfirst, subParam_first (by decide) hfirst]
    rfl
  · refine ⟨cs ++ ['&'] ++ paramWord "service" ++ ['#', 'x'], ?_, cs, '&' :: paramWord "service",
      [], by decide, by decide, (List.append_nil cs).symm, by simp⟩
    rw [subParam_first (by decide) (first_append_sep (by decide) h), subParam_of_not h]
    simp [dropAmp]

theorem takeOut_hidden {cs v : List Char} (h : Hidden cs v) : takeOut v = takeOut cs := by
  have hfirst : ∀ cs, protocolParams.foldl (fun cs p => subParam p cs) cs =
      ["ticket", "gateway", "renew"].foldl (fun cs p => subParam p cs) (subParam "service" cs) :=
    fun _ => rfl
  rw [takeOut, takeOut, hfirst, hfirst, h.cleaned]

/-- The hidden fragment is a difference. -/
theorem Hidden.not_alike {u v : String} (h : Hidden u.toList v.toList) : ¬ Alike u v := by
  intro halike
  obtain ⟨a, t, b, ht, -, hu, hv⟩ := h.inserted
  have hfree : '#' ∉ t.map plus := not_mem_map_plus (by decide) ht
  have hlength := @length_fragment_lt (a.map plus) (t.map plus) (b.map plus) hfree
  have hu' : u.toList.map plus = a.map plus ++ b.map plus := by rw [hu, List.map_append]
  have hv' : v.toList.map plus =
      a.map plus ++ (t.map plus ++ '#' :: 'x' :: b.map plus) := by
    rw [hv, List.map_append, List.map_append]
    rfl
  rw [← hu', ← hv', halike.fragment] at hlength
  exact absurd hlength (Nat.lt_irrefl _)

/-- Nothing is left to clean of a blank text without spaces. -/
theorem nothingLeft_of_blank {u : String} (hblank : isBlank u = true) (hspace : ' ' ∉ u.toList) :
    NothingLeft u.toList := by
  have hmem : ∀ c ∈ u.toList, isSpace c = true := List.all_eq_true.mp hblank
  have hno : ∀ c, isSpace c = false → c ∉ u.toList := fun c hc h =>
    Bool.false_ne_true (hc.symm.trans (hmem c h))
  refine ⟨fun p _ h => ?_, ?_, fun h => ?_, hspace⟩
  · exact hno '=' (by decide) (h.subset (by simp [paramWord]))
  · rintro ⟨c, hc, h⟩
    have hin : c ∈ u.toList := by
      rcases h with h | h
      · exact h.subset List.mem_cons_self
      · exact h.subset List.mem_cons_self
    have hspaces := hmem c hin
    simp only [isTrailing, Bool.or_eq_true, beq_iff_eq] at hc
    rcases hc with (rfl | rfl) | rfl
    · exact absurd hspaces (by decide)
    · exact absurd hspaces (by decide)
    · exact absurd hspaces (by decide)
  · exact hno '?' (by decide) (h.subset List.mem_cons_self)

/-- What cleaning does to any service but a blank one with spaces. -/
theorem cleanServiceUrl_of_not {u : String} (h : ¬ (isBlank u = true ∧ ' ' ∈ u.toList)) :
    cleanServiceUrl u = String.ofList ((takeOut u.toList).map plus) := by
  by_cases hblank : isBlank u = true
  · have hleft := nothingLeft_of_blank hblank fun hspace => h ⟨hblank, hspace⟩
    rw [cleanServiceUrl_of_blank hblank,
      takeOut_eq_iff.mpr ⟨hleft.params, hleft.trailing, hleft.question⟩,
      map_plus_eq_iff.mpr hleft.space, String.ofList_toList]
  · exact cleanServiceUrl_of_not_blank hblank

/-! ### Who is confused -/

/-- No space is left in a service that is not blank. -/
theorem space_not_mem_clean {u : String} (h : ¬ isBlank u = true) :
    ' ' ∉ (cleanServiceUrl u).toList := by
  rw [cleanServiceUrl_of_not_blank h, String.toList_ofList]
  exact map_plus_eq_iff.mp (plus_plus _)

/-- **Services with nothing to clean are told apart.** -/
theorem eq_of_settled {u v : String} (hu : Settled u) (hv : Settled v) (h : AcceptedFor u v) :
    u = v := by
  rw [← cleanServiceUrl_eq_iff] at hu hv
  rwa [AcceptedFor, hu, hu, hv, hv] at h

/-- **The ticket of a service is accepted for no other exactly if the service is blank and
has a space in it**; that of a plain service is accepted for no other plain one. -/
theorem confusesNone_iff (u : String) :
    ((∀ v, AcceptedFor u v → Alike u v) ↔ isBlank u = true ∧ ' ' ∈ u.toList) ∧
      (Plain u.toList → ∀ v : String, Plain v.toList → AcceptedFor u v → Alike u v) := by
  refine ⟨⟨fun h => ?_, ?_⟩, fun hu v hv => alike_of_plain hu hv⟩
  · by_contra hu
    obtain ⟨cs, hhidden⟩ := exists_hidden u.toList
    have hcs : (String.ofList cs).toList = cs := String.toList_ofList
    have hv : ¬ (isBlank (String.ofList cs) = true ∧ ' ' ∈ (String.ofList cs).toList) := by
      rintro ⟨hblank, -⟩
      obtain ⟨a, t, b, -, -, -, hins⟩ := hhidden.inserted
      have hletter : 'x' ∈ (String.ofList cs).toList := by rw [hcs, hins]; simp
      have hspace := List.all_eq_true.mp hblank 'x' hletter
      exact absurd hspace (by decide)
    have hclean : cleanServiceUrl (String.ofList cs) = cleanServiceUrl u := by
      rw [cleanServiceUrl_of_not hv, cleanServiceUrl_of_not hu, hcs, takeOut_hidden hhidden]
    have haccepted : AcceptedFor u (String.ofList cs) := by rw [AcceptedFor, hclean]
    rw [← hcs] at hhidden
    exact hhidden.not_alike (h _ haccepted)
  · rintro ⟨hblank, hspace⟩ v h
    rw [AcceptedFor, cleanServiceUrl_of_blank hblank, cleanServiceUrl_of_blank hblank] at h
    -- a space is left only in what has been blank from the start
    have hblank₁ : isBlank (cleanServiceUrl v) = true := by
      by_contra hnot
      rw [h] at hspace
      exact space_not_mem_clean hnot hspace
    rw [cleanServiceUrl_of_blank hblank₁] at h
    have hblank₂ : isBlank v = true := by
      by_contra hnot
      rw [h] at hspace
      exact space_not_mem_clean hnot hspace
    rw [cleanServiceUrl_of_blank hblank₂] at h
    rw [h]
    exact Alike.refl v

/-- A parameter whose name ends like one of the protocol is not compared. -/
theorem confused_webservice :
    AcceptedFor "http://app.example/p?webservice=1" "http://app.example/p?webservice=2" ∧
      ¬ Alike "http://app.example/p?webservice=1" "http://app.example/p?webservice=2" := by
  refine ⟨?_, fun h => absurd h.params (by decide +kernel)⟩
  rw [AcceptedFor]
  decide +kernel

end BkPlatform.Cas
