import BkPlatform.Cas.Service
import BkPlatform.Lib.Occurrence

/-!
# What cleaning does to a service

Every step of `clean_service_url` but the last takes characters out, so that a service is
left as it is exactly if no step finds anything.  A parameter is looked for anywhere in the
text and is taken out up to the next `&`, one occurrence at a time.

## Main definitions

* `HasParam` — the text has a name of the protocol followed by `=`.
* `EndsLine` — a line of it ends with one of the characters that are dropped.
* `NothingLeft` — no step finds anything.
* `Settled` — the service is blank, or nothing is left to clean.

## Main results

* `subParam_first` — what is taken out with the first occurrence of a parameter.
* `cleanServiceUrl_eq_iff` — **exactly which services cleaning leaves as they are.**
-/

namespace BkPlatform.Cas

open RubyString Occurrence

/-! ### The first occurrence of a parameter -/

/-- The parameters of the protocol. -/
def protocolParams : List String := ["service", "ticket", "gateway", "renew"]

/-- What the expression looks for, behind an optional `&`. -/
def paramWord (p : String) : List Char := (p ++ "=").toList

/-- The text has the name of a parameter followed by `=`. -/
def HasParam (p : String) (cs : List Char) : Prop := paramWord p <:+: cs

instance (p : String) (cs : List Char) : Decidable (HasParam p cs) :=
  inferInstanceAs (Decidable (paramWord p <:+: cs))

/-- What is left in front of a parameter: an `&` goes with it. -/
def dropAmp (cs : List Char) : List Char := if cs.getLast? = some '&' then cs.dropLast else cs

variable {p : String} {a b cs : List Char}

theorem skipParam_append (p : String) (b : List Char) :
    skipParam p (paramWord p ++ b) = some (b.dropWhile fun c => c != '&') := by
  have hrest : (paramWord p).isPrefixOf? (paramWord p ++ b) = some b :=
    List.isPrefixOf?_eq_some_iff_append_eq.mpr rfl
  rw [skipParam, ← paramWord, hrest, Option.map_some]

theorem skipParam_eq_none (h : ¬ paramWord p <+: cs) : skipParam p cs = none := by
  rw [skipParam, ← paramWord, Option.map_eq_none_iff]
  cases hrest : (paramWord p).isPrefixOf? cs with
  | none => rfl
  | some rest => exact absurd ⟨rest, List.isPrefixOf?_eq_some_iff_append_eq.mp hrest⟩ h

theorem dropAmp_cons {c : Char} (h : c = '&' → a ≠ []) : dropAmp (c :: a) = c :: dropAmp a := by
  cases a with
  | nil =>
    have hc : c ≠ '&' := fun heq => h heq rfl
    simp [dropAmp, hc]
  | cons d ds =>
    unfold dropAmp
    rw [List.getLast?_cons_cons]
    split
    · rfl
    · rfl

theorem ne_amp_of_paramWord {c : Char} (hp : '&' ∉ p.toList) (h : c ∈ paramWord p) : c ≠ '&' := by
  rintro rfl
  simp [paramWord, hp] at h

theorem paramWord_ne_nil (p : String) : paramWord p ≠ [] := by simp [paramWord]

/-- **The first occurrence of a parameter** is taken out up to the next `&`, with an `&` in
front of it. -/
theorem subParam_first (hp : '&' ∉ p.toList) (h : First (paramWord p) a) (b : List Char) :
    subParam p (a ++ paramWord p ++ b) = dropAmp a ++ b.dropWhile fun c => c != '&' := by
  induction a with
  | nil =>
    obtain ⟨c, ws, hword⟩ := List.exists_cons_of_ne_nil (paramWord_ne_nil p)
    have hc : c ≠ '&' := ne_amp_of_paramWord hp (by rw [hword]; exact List.mem_cons_self)
    have hskip := skipParam_append p b
    rw [hword, List.cons_append] at hskip
    rw [List.nil_append, hword, List.cons_append, subParam, if_neg hc, hskip]
    rfl
  | cons c a ih =>
    have hhere : skipParam p (c :: (a ++ paramWord p ++ b)) = none := skipParam_eq_none h.not_prefix
    rw [List.cons_append, List.cons_append, subParam, hhere]
    by_cases hc : c = '&'
    · rw [if_pos hc, Option.or_none]
      cases a with
      | nil =>
        rw [List.nil_append, skipParam_append, hc]
        rfl
      | cons d ds =>
        have hnext : skipParam p (d :: ds ++ paramWord p ++ b) = none :=
          skipParam_eq_none h.tail.not_prefix
        rw [hnext, ih h.tail, dropAmp_cons fun _ => List.cons_ne_nil d ds]
        rfl
    · rw [if_neg hc, ih h.tail, dropAmp_cons fun heq => absurd heq hc]
      rfl

theorem subParam_of_not (h : ¬ HasParam p cs) : subParam p cs = cs := by
  induction cs with
  | nil => rfl
  | cons c cs ih =>
    have hhere : skipParam p (c :: cs) = none := skipParam_eq_none fun hpre => h hpre.isInfix
    have hrest : ¬ HasParam p cs := fun hin => h (List.infix_cons hin)
    have hnext : skipParam p cs = none := skipParam_eq_none fun hpre => hrest hpre.isInfix
    rw [subParam, hhere, hnext, ih hrest]
    simp

/-! ### Steps that only take out -/

theorem dropAmp_sublist (cs : List Char) : (dropAmp cs).Sublist cs := by
  unfold dropAmp
  split
  · exact List.dropLast_sublist cs
  · exact List.Sublist.refl cs

/-- A parameter is taken out, and nothing else changed. -/
theorem subParam_sublist (hp : '&' ∉ p.toList) (cs : List Char) : (subParam p cs).Sublist cs := by
  by_cases h : HasParam p cs
  · obtain ⟨a, b, rfl, hfirst⟩ := exists_first h
    rw [subParam_first hp hfirst, List.append_assoc]
    exact (dropAmp_sublist a).append
      ((List.dropWhile_sublist _).trans (List.sublist_append_right (paramWord p) b))
  · rw [subParam_of_not h]

/-- A text without the parameter is left as it is, any other gets shorter. -/
theorem subParam_eq_iff (hp : '&' ∉ p.toList) : subParam p cs = cs ↔ ¬ HasParam p cs := by
  refine ⟨fun heq h => ?_, subParam_of_not⟩
  obtain ⟨a, b, rfl, hfirst⟩ := exists_first h
  rw [subParam_first hp hfirst] at heq
  have hlength := congrArg List.length heq
  have hamp := (dropAmp_sublist a).length_le
  have hdrop := (List.dropWhile_sublist (fun c => c != '&') (l := b)).length_le
  have hword : (paramWord p).length = p.toList.length + 1 := by simp [paramWord]
  simp only [List.length_append] at hlength
  omega

/-- The characters that are dropped at the end of a line. -/
def isTrailing (c : Char) : Bool := c == '/' || c == '?' || c == '&'

/-- A line ends with such a character. -/
def EndsLine (cs : List Char) : Prop :=
  ∃ c, isTrailing c = true ∧ ([c] <:+ cs ∨ [c, '\n'] <:+: cs)

theorem dropTrailing_sublist (cs : List Char) : (dropTrailing cs).Sublist cs := by
  induction cs with
  | nil => exact List.Sublist.refl []
  | cons c cs ih =>
    rw [dropTrailing]
    split
    · exact ih.cons c
    · exact ih.cons_cons c

/-- The next character is a newline. -/
theorem newline_prefix_iff : ['\n'] <+: cs ↔ cs.head? = some '\n' := by
  cases cs with
  | nil => simp
  | cons c cs => simp [eq_comm]

theorem endsLine_cons {c : Char} : EndsLine (c :: cs) ↔
    isTrailing c = true ∧ (cs = [] ∨ cs.head? = some '\n') ∨ EndsLine cs := by
  constructor
  · rintro ⟨d, hd, h | h⟩
    · rcases List.suffix_cons_iff.mp h with heq | hlater
      · obtain ⟨rfl, hnil⟩ := List.cons.inj heq
        exact Or.inl ⟨hd, Or.inl hnil.symm⟩
      · exact Or.inr ⟨d, hd, Or.inl hlater⟩
    · rcases List.infix_cons_iff.mp h with hhere | hlater
      · obtain ⟨rfl, hnext⟩ := List.cons_prefix_cons.mp hhere
        exact Or.inl ⟨hd, Or.inr (newline_prefix_iff.mp hnext)⟩
      · exact Or.inr ⟨d, hd, Or.inr hlater⟩
  · rintro (⟨hc, rfl | hnext⟩ | ⟨d, hd, h | h⟩)
    · exact ⟨c, hc, Or.inl (List.suffix_refl _)⟩
    · exact ⟨c, hc, Or.inr (List.cons_prefix_cons.mpr
        ⟨rfl, newline_prefix_iff.mpr hnext⟩).isInfix⟩
    · exact ⟨d, hd, Or.inl (h.trans (List.suffix_cons c cs))⟩
    · exact ⟨d, hd, Or.inr (List.infix_cons h)⟩

/-- A text without such a character is left as it is, any other gets shorter. -/
theorem dropTrailing_eq_iff : dropTrailing cs = cs ↔ ¬ EndsLine cs := by
  induction cs with
  | nil =>
    refine iff_of_true rfl ?_
    rintro ⟨c, -, h | h⟩
    · simp at h
    · simp at h
  | cons c cs ih =>
    rw [dropTrailing, endsLine_cons, not_or, ← ih]
    have htest : ((c == '/' || c == '?' || c == '&') && (cs.isEmpty || cs.head? == some '\n')) =
        true ↔ isTrailing c = true ∧ (cs = [] ∨ cs.head? = some '\n') := by
      simp [isTrailing]
    split
    · next h =>
      refine iff_of_false (fun heq => ?_) fun hnot => hnot.1 (htest.mp h)
      have hlength := (dropTrailing_sublist cs).length_le
      rw [heq, List.length_cons] at hlength
      omega
    · next h =>
      rw [List.cons.injEq, and_iff_right rfl]
      exact ⟨fun heq => ⟨fun hends => h (htest.mpr hends), heq⟩, fun heq => heq.2⟩

theorem subQuestion_sublist (cs : List Char) : (subQuestion cs).Sublist cs := by
  fun_induction subQuestion cs with
  | case1 cs ih => exact (ih.cons '&').cons_cons '?'
  | case2 c cs hne ih => exact ih.cons_cons c
  | case3 => exact List.Sublist.refl []

/-- A text without `?&` is left as it is, any other gets shorter. -/
theorem subQuestion_eq_iff : subQuestion cs = cs ↔ ¬ ['?', '&'] <:+: cs := by
  fun_induction subQuestion cs with
  | case1 cs ih =>
    refine iff_of_false (fun heq => ?_) fun hnot => hnot ⟨[], cs, rfl⟩
    have hlength := (subQuestion_sublist cs).length_le
    rw [(List.cons.inj heq).2, List.length_cons] at hlength
    omega
  | case2 c cs hne ih =>
    rw [List.cons.injEq, and_iff_right rfl, ih, List.infix_cons_iff, not_or]
    refine (and_iff_right ?_).symm
    rintro ⟨rest, hrest⟩
    obtain ⟨hc, hcs⟩ := List.cons.inj hrest
    exact hne rest hc.symm hcs.symm
  | case3 => simp

/-! ### The whole of it -/

/-- The steps without the test for a blank service. -/
def takeOut (cs : List Char) : List Char :=
  subQuestion (dropTrailing (protocolParams.foldl (fun cs p => subParam p cs) cs))

/-- A space becomes a plus sign. -/
def plus (c : Char) : Char := if c = ' ' then '+' else c

theorem cleanServiceUrl_of_blank {u : String} (h : isBlank u = true) : cleanServiceUrl u = u :=
  if_pos h

theorem cleanServiceUrl_of_not_blank {u : String} (h : ¬ isBlank u = true) :
    cleanServiceUrl u = String.ofList ((takeOut u.toList).map plus) :=
  if_neg h

/-- No step finds anything. -/
structure NothingLeft (cs : List Char) : Prop where
  params : ∀ p ∈ protocolParams, ¬ HasParam p cs
  trailing : ¬ EndsLine cs
  question : ¬ ['?', '&'] <:+: cs
  space : ' ' ∉ cs

/-- The service is blank, or nothing is left to clean. -/
def Settled (u : String) : Prop := isBlank u = true ∨ NothingLeft u.toList

theorem amp_not_mem_protocolParams : ∀ p ∈ protocolParams, '&' ∉ p.toList := by decide

/-- The parameters are all taken out, or the text gets shorter. -/
theorem params_sublist {ps : List String} (hps : ∀ p ∈ ps, '&' ∉ p.toList) (cs : List Char) :
    (ps.foldl (fun cs p => subParam p cs) cs).Sublist cs := by
  induction ps generalizing cs with
  | nil => exact List.Sublist.refl cs
  | cons p ps ih =>
    rw [List.forall_mem_cons] at hps
    exact (ih hps.2 (subParam p cs)).trans (subParam_sublist hps.1 cs)

theorem params_eq_iff {ps : List String} (hps : ∀ p ∈ ps, '&' ∉ p.toList) :
    ps.foldl (fun cs p => subParam p cs) cs = cs ↔ ∀ p ∈ ps, ¬ HasParam p cs := by
  induction ps with
  | nil => simp
  | cons p ps ih =>
    rw [List.forall_mem_cons] at hps
    rw [List.foldl_cons, List.forall_mem_cons, ← subParam_eq_iff hps.1, ← ih hps.2]
    constructor
    · intro h
      -- what the later steps leave is no longer than what the first does
      have hfirst : subParam p cs = cs := by
        refine (subParam_sublist hps.1 cs).eq_of_length_le ?_
        have hlength := (params_sublist hps.2 (subParam p cs)).length_le
        rwa [h] at hlength
      exact ⟨hfirst, by rwa [hfirst] at h⟩
    · rintro ⟨hfirst, hrest⟩
      rw [hfirst, hrest]

theorem takeOut_sublist (cs : List Char) : (takeOut cs).Sublist cs :=
  (subQuestion_sublist _).trans ((dropTrailing_sublist _).trans
    (params_sublist amp_not_mem_protocolParams cs))

theorem takeOut_eq_iff : takeOut cs = cs ↔
    (∀ p ∈ protocolParams, ¬ HasParam p cs) ∧ ¬ EndsLine cs ∧ ¬ ['?', '&'] <:+: cs := by
  rw [← params_eq_iff amp_not_mem_protocolParams, ← dropTrailing_eq_iff, ← subQuestion_eq_iff]
  have hparams := params_sublist amp_not_mem_protocolParams cs
  constructor
  · intro h
    rw [takeOut] at h
    have hfirst : protocolParams.foldl (fun cs p => subParam p cs) cs = cs := by
      refine hparams.eq_of_length_le ?_
      have hlength := ((subQuestion_sublist _).trans (dropTrailing_sublist
        (protocolParams.foldl (fun cs p => subParam p cs) cs))).length_le
      rwa [h] at hlength
    rw [hfirst] at h
    have hsecond : dropTrailing cs = cs := by
      refine (dropTrailing_sublist cs).eq_of_length_le ?_
      have hlength := (subQuestion_sublist (dropTrailing cs)).length_le
      rwa [h] at hlength
    exact ⟨hfirst, hsecond, by rwa [hsecond] at h⟩
  · rintro ⟨hfirst, hsecond, hthird⟩
    rw [takeOut, hfirst, hsecond, hthird]

theorem map_plus_eq_iff : cs.map plus = cs ↔ ' ' ∉ cs := by
  constructor
  · intro h hmem
    have hplus : ' ' ∈ cs.map plus := by rwa [h]
    obtain ⟨c, -, hc⟩ := List.mem_map.mp hplus
    unfold plus at hc
    split at hc
    · cases hc
    · next hne => exact hne hc
  · intro h
    have hsame : ∀ c ∈ cs, plus c = c := by
      intro c hc
      refine if_neg ?_
      rintro rfl
      exact h hc
    exact (List.map_congr_left hsame).trans (List.map_id' cs)

/-- **Cleaning leaves a service as it is exactly if it is blank, or nothing is left to
clean.** -/
theorem cleanServiceUrl_eq_iff {u : String} : cleanServiceUrl u = u ↔ Settled u := by
  by_cases hblank : isBlank u = true
  · exact iff_of_true (cleanServiceUrl_of_blank hblank) (Or.inl hblank)
  · have hchars : cleanServiceUrl u = u ↔ (takeOut u.toList).map plus = u.toList := by
      rw [cleanServiceUrl_of_not_blank hblank]
      constructor
      · intro h
        simpa using congrArg String.toList h
      · intro h
        rw [h, String.ofList_toList]
    rw [hchars, Settled, or_iff_right hblank]
    constructor
    · intro h
      have htaken : takeOut u.toList = u.toList := by
        have hlength := congrArg List.length h
        rw [List.length_map] at hlength
        exact (takeOut_sublist u.toList).eq_of_length hlength
      rw [htaken] at h
      obtain ⟨hparams, htrailing, hquestion⟩ := takeOut_eq_iff.mp htaken
      exact ⟨hparams, htrailing, hquestion, map_plus_eq_iff.mp h⟩
    · intro h
      rw [takeOut_eq_iff.mpr ⟨h.params, h.trailing, h.question⟩, map_plus_eq_iff.mpr h.space]

end BkPlatform.Cas
