import BkPlatform.Cas.Parts

/-!
# Services that are told apart

Where the names of the protocol stand in a service only as the names of its parameters,
each step of the cleaning is an edit: it takes out a parameter of the protocol or a
character at the end.  The one exception is the `&` that is left behind the `?` when the
first parameter is taken out; the last step takes it away.  So two such services whose
ticket is accepted for one another are alike.

## Main definitions

* `PlainParam`, `PlainPath` — the names of the protocol stand nowhere but in front.
* `Parts`, `Plain` — a text that is put together of such parts.
* `AcceptedFor` — the ticket of a login for one service is accepted for the other.

## Main results

* `alike_of_plain` — **plain services are not confused.**
-/

namespace BkPlatform.Cas

open RubyString Occurrence Relation

/-! ### Plain texts -/

/-- A parameter in which a name of the protocol stands only in front. -/
structure PlainParam (x : List Char) : Prop where
  filled : x ≠ []
  free : ∀ c ∈ ['?', '&', '#', '\n'], c ∉ x
  named : ∀ p ∈ protocolParams, ¬ HasParam p x.tail

/-- A path in which no name of the protocol stands. -/
structure PlainPath (path : List Char) : Prop where
  free : ∀ c ∈ ['?', '#', '\n'], c ∉ path
  named : ∀ p ∈ protocolParams, ¬ HasParam p path

/-- A plain path with plain parameters, and characters that are dropped at the end. -/
structure Parts where
  path : List Char
  params : List (List Char)
  tail : List Char
  plainPath : PlainPath path
  plainParams : ∀ x ∈ params, PlainParam x
  trailing : ∀ c ∈ tail, isTrailing c = true

def Parts.body (s : Parts) : List Char := textOf s.path s.params

def Parts.text (s : Parts) : List Char := s.body ++ s.tail

/-- The text is put together of plain parts. -/
def Plain (cs : List Char) : Prop := ∃ s : Parts, s.text = cs

/-- The parameters with an `&` in front of each. -/
def joined (params : List (List Char)) : List Char := params.flatMap fun x => '&' :: x

/-- The text with an `&` behind the `?`: what it is when the first parameter has been taken
out. -/
def Parts.gapped (s : Parts) : List Char := s.path ++ '?' :: (joined s.params ++ s.tail)

theorem PlainParam.front {x a b : List Char} {p : String} (h : PlainParam x)
    (hp : p ∈ protocolParams) (hx : x = a ++ paramWord p ++ b) : a = [] := by
  cases a with
  | nil => rfl
  | cons c a => exact absurd ⟨a, b, by rw [hx]; rfl⟩ (h.named p hp)

/-! ### Looking for a parameter -/

section Looking

variable {p : String} {a b t x : List Char} {xs params : List (List Char)}

theorem intercalate_joined (x : List Char) (xs : List (List Char)) :
    ['&'].intercalate (x :: xs) = x ++ joined xs := by
  induction xs generalizing x with
  | nil => simp [joined]
  | cons y ys ih =>
    rw [List.intercalate_cons_cons, ih]
    simp [joined]

theorem textOf_cons (path x : List Char) (xs : List (List Char)) :
    textOf path (x :: xs) = path ++ '?' :: (x ++ joined xs) := by
  rw [textOf, intercalate_joined]

theorem joined_snoc (xs : List (List Char)) (x : List Char) :
    joined (xs ++ [x]) = joined xs ++ '&' :: x := by
  simp [joined]

/-- A stretch in which the name does not begin is left as it is. -/
theorem subParam_append (h : ∀ s, s <:+ a → ¬ paramWord p <+: s ++ t) :
    subParam p (a ++ t) = a ++ subParam p t := by
  induction a with
  | nil => rfl
  | cons c a ih =>
    have hhere : skipParam p (c :: (a ++ t)) = none :=
      skipParam_eq_none (h (c :: a) (List.suffix_refl _))
    have hnext : skipParam p (a ++ t) = none := skipParam_eq_none (h a (List.suffix_cons c a))
    rw [List.cons_append, subParam, hhere, hnext,
      ih fun s hs => h s (hs.trans (List.suffix_cons c a))]
    simp

/-- No character that is dropped at the end stands in a name. -/
theorem not_mem_paramWord (hp : p ∈ protocolParams) {c : Char}
    (hc : isTrailing c = true) : c ∉ paramWord p := by
  have hnone : ∀ p ∈ protocolParams, ((paramWord p).all fun c => !isTrailing c) = true := by decide
  intro h
  have hnot := List.all_eq_true.mp (hnone p hp) c h
  rw [hc] at hnot
  cases hnot

theorem not_prefix_trailing (hp : p ∈ protocolParams) {c : Char} (hc : isTrailing c = true) :
    ¬ paramWord p <+: c :: t := by
  rintro ⟨y, hy⟩
  obtain ⟨d, w, hword⟩ := List.exists_cons_of_ne_nil (paramWord_ne_nil p)
  rw [hword] at hy
  obtain ⟨rfl, -⟩ := List.cons.inj hy
  exact not_mem_paramWord hp hc (by rw [hword]; exact List.mem_cons_self)

theorem subParam_front (hp : p ∈ protocolParams) (b : List Char) :
    subParam p (paramWord p ++ b) = b.dropWhile fun c => c != '&' := by
  simpa [dropAmp] using subParam_first (amp_not_mem_protocolParams p hp) first_nil b

theorem subParam_amp (hp : p ∈ protocolParams) (b : List Char) :
    subParam p ('&' :: (paramWord p ++ b)) = b.dropWhile fun c => c != '&' := by
  have hfirst : First (paramWord p) ['&'] :=
    first_append_sep (a := []) (not_mem_paramWord hp (by decide))
      fun h => paramWord_ne_nil p (List.infix_nil.mp h)
  simpa [dropAmp] using subParam_first (amp_not_mem_protocolParams p hp) hfirst b

/-- No name of the protocol stands among the characters at the end. -/
theorem subParam_tail (ht : ∀ c ∈ t, isTrailing c = true) : subParam p t = t := by
  refine subParam_of_not fun h => ?_
  have heq : '=' ∈ t := h.subset (by simp [paramWord])
  exact absurd (ht '=' heq) (by decide)

/-- A parameter that has the name in front is one of the protocol. -/
theorem isProtocolParam_append (hp : p ∈ protocolParams) (b : List Char) :
    isProtocolParam (paramWord p ++ b) = true := by
  refine List.any_eq_true.mpr ⟨p, hp, beq_iff_eq.mpr ?_⟩
  have hfree : ∀ p ∈ protocolParams, '=' ∉ p.toList := by decide
  have hword : paramWord p ++ b = p.toList ++ '=' :: b := by simp [paramWord]
  rw [hword, takeWhile_ne_append (hfree p hp) (by simp)]

/-- What is taken out goes up to the next parameter, or to the end. -/
theorem dropWhile_joined (hb : '&' ∉ b) (xs : List (List Char)) (t : List Char) :
    ∃ t', t' <:+ t ∧ (b ++ (joined xs ++ t)).dropWhile (fun c => c != '&') = joined xs ++ t' := by
  cases xs with
  | nil =>
    refine ⟨t.dropWhile fun c => c != '&', List.dropWhile_suffix _, ?_⟩
    exact List.dropWhile_append_of_pos (bne_of_not_mem hb)
  | cons y ys =>
    refine ⟨t, List.suffix_refl t, ?_⟩
    exact dropWhile_ne_append hb (by simp [joined])

/-- The name does not begin in a parameter that has it not in front. -/
theorem not_prefix_param (hp : p ∈ protocolParams) (hx : PlainParam x)
    (hfront : ¬ paramWord p <+: x) (hxs : ∀ c ∈ t.head?, isTrailing c = true) :
    ∀ s, s <:+ x → ¬ paramWord p <+: s ++ t := by
  refine not_prefix_append (paramWord_ne_nil p) ?_ fun c hc => not_mem_paramWord hp (hxs c hc)
  rintro ⟨a, b, hab⟩
  obtain rfl := hx.front hp hab.symm
  exact hfront ⟨b, hab⟩

/-- One parameter of the protocol is gone, or none. -/
def Without (params params' : List (List Char)) : Prop :=
  params' = params ∨
    ∃ xs x ys, params = xs ++ x :: ys ∧ params' = xs ++ ys ∧ isProtocolParam x = true

theorem Without.cons {params' : List (List Char)} (h : Without params params') (x : List Char) :
    Without (x :: params) (x :: params') := by
  rcases h with rfl | ⟨xs, y, ys, rfl, rfl, hy⟩
  · exact Or.inl rfl
  · exact Or.inr ⟨x :: xs, y, ys, rfl, rfl, hy⟩

theorem Without.subset {params' : List (List Char)} (h : Without params params') :
    ∀ x ∈ params', x ∈ params := by
  rcases h with rfl | ⟨xs, y, ys, rfl, rfl, -⟩
  · exact fun x hx => hx
  · exact fun x hx => mem_of_mem_rest hx

theorem head_joined (ht : ∀ c ∈ t, isTrailing c = true) :
    ∀ c ∈ (joined xs ++ t).head?, isTrailing c = true := by
  cases xs with
  | nil => exact fun c hc => ht c (List.mem_of_mem_head? hc)
  | cons y ys =>
    rintro c ⟨⟩
    decide

/-- Among parameters that have an `&` in front, the first with the name is taken out. -/
theorem subParam_joined (hp : p ∈ protocolParams) (hparams : ∀ x ∈ params, PlainParam x)
    (ht : ∀ c ∈ t, isTrailing c = true) :
    ∃ params' t', Without params params' ∧ t' <:+ t ∧
      subParam p (joined params ++ t) = joined params' ++ t' := by
  induction params with
  | nil => exact ⟨[], t, Or.inl rfl, List.suffix_refl t, subParam_tail ht⟩
  | cons x xs ih =>
    rw [List.forall_mem_cons] at hparams
    have hjoined : joined (x :: xs) ++ t = '&' :: (x ++ (joined xs ++ t)) := by simp [joined]
    rw [hjoined]
    by_cases hfront : paramWord p <+: x
    · obtain ⟨b, rfl⟩ := hfront
      have hb : '&' ∉ b := fun hmem =>
        hparams.1.free '&' (by simp) (List.mem_append_right _ hmem)
      obtain ⟨t', ht', hdrop⟩ := dropWhile_joined hb xs t
      refine ⟨xs, t', Or.inr ⟨[], _, xs, rfl, rfl, isProtocolParam_append hp b⟩, ht', ?_⟩
      rw [List.append_assoc, subParam_amp hp, hdrop]
    · obtain ⟨params', t', hwithout, ht', hsub⟩ := ih hparams.2
      refine ⟨x :: params', t', hwithout.cons x, ht', ?_⟩
      have hskip : ∀ s, s <:+ '&' :: x → ¬ paramWord p <+: s ++ (joined xs ++ t) := by
        intro s hs
        rcases List.suffix_cons_iff.mp hs with rfl | hs
        · exact not_prefix_trailing hp (by decide)
        · exact not_prefix_param hp hparams.1 hfront (head_joined ht) s hs
      have happend := subParam_append hskip
      rw [hsub] at happend
      rw [← List.cons_append, happend]
      simp [joined]

/-- A question mark is no part of a parameter. -/
theorem subParam_question (hp : p ∈ protocolParams) (t : List Char) :
    subParam p ('?' :: t) = '?' :: subParam p t := by
  have hskip : skipParam p ('?' :: t) = none :=
    skipParam_eq_none (not_prefix_trailing hp (by decide))
  rw [subParam, if_neg (by decide), hskip]

/-- Nothing is taken out of the path. -/
theorem subParam_path {path : List Char} (hp : p ∈ protocolParams) (hpath : PlainPath path)
    (ht : ∀ c ∈ t.head?, isTrailing c = true) : subParam p (path ++ t) = path ++ subParam p t :=
  subParam_append (not_prefix_append (paramWord_ne_nil p) (hpath.named p hp)
    fun c hc => not_mem_paramWord hp (ht c hc))

end Looking

/-! ### Every step is an edit -/

/-- The text has come from the first by edits, or it will have when the `&` behind the `?`
is gone. -/
def Near (w cs : List Char) : Prop :=
  ∃ s : Parts, EqvGen Edit w s.body ∧ (cs = s.text ∨ cs = s.gapped)

/-- What is left of plain parts. -/
def Parts.without (s : Parts) {params' : List (List Char)} {t' : List Char}
    (hparams : Without s.params params') (ht : t' <:+ s.tail) : Parts where
  path := s.path
  params := params'
  tail := t'
  plainPath := s.plainPath
  plainParams := fun x hx => s.plainParams x (hparams.subset x hx)
  trailing := fun c hc => s.trailing c (ht.subset hc)

theorem Parts.edits_without (s : Parts) {params' : List (List Char)} {t' : List Char}
    (hparams : Without s.params params') (ht : t' <:+ s.tail) :
    EqvGen Edit s.body (s.without hparams ht).body := by
  rcases hparams with heq | ⟨xs, x, ys, hsplit, hrest, hx⟩
  · have hbody : (s.without (Or.inl heq) ht).body = s.body := congrArg (textOf s.path) heq
    rw [hbody]
    exact EqvGen.refl _
  · have hfree : ∀ y ∈ xs ++ x :: ys, '&' ∉ y ∧ '#' ∉ y := by
      rw [← hsplit]
      exact fun y hy => ⟨(s.plainParams y hy).free '&' (by simp),
        (s.plainParams y hy).free '#' (by simp)⟩
    have hpath := And.intro (s.plainPath.free '?' (by simp)) (s.plainPath.free '#' (by simp))
    have hedit := @Edit.param s.path xs x ys [] hpath hfree (by simp) hx
    rw [List.append_nil, List.append_nil, ← hsplit, ← hrest] at hedit
    exact EqvGen.rel _ _ hedit

variable {w cs : List Char} {p : String}

/-- **Taking out a parameter is an edit.** -/
theorem Near.taken (hp : p ∈ protocolParams) (h : Near w cs) : Near w (subParam p cs) := by
  obtain ⟨s, hedits, rfl | rfl⟩ := h
  · cases hparams : s.params with
    | nil =>
      refine ⟨s, hedits, Or.inl ?_⟩
      have htext : s.text = s.path ++ s.tail := by rw [Parts.text, Parts.body, hparams, textOf]
      rw [htext, subParam_path hp s.plainPath fun c hc => s.trailing c (List.mem_of_mem_head? hc),
        subParam_tail s.trailing]
    | cons x xs =>
      have hplain := List.forall_mem_cons.mp (hparams ▸ s.plainParams)
      have htext : s.text = s.path ++ '?' :: (x ++ (joined xs ++ s.tail)) := by
        rw [Parts.text, Parts.body, hparams, textOf_cons]
        simp
      rw [htext, subParam_path hp s.plainPath (by rintro c ⟨⟩; decide), subParam_question hp]
      by_cases hfront : paramWord p <+: x
      · obtain ⟨b, rfl⟩ := hfront
        have hb : '&' ∉ b := fun hmem =>
          hplain.1.free '&' (by simp) (List.mem_append_right _ hmem)
        obtain ⟨t', ht', hdrop⟩ := dropWhile_joined hb xs s.tail
        have hwithout : Without s.params xs :=
          Or.inr ⟨[], _, xs, hparams, rfl, isProtocolParam_append hp b⟩
        refine ⟨s.without hwithout ht', hedits.trans _ _ _ (s.edits_without hwithout ht'),
          Or.inr ?_⟩
        rw [List.append_assoc, subParam_front hp, hdrop]
        rfl
      · obtain ⟨params', t', hrest, ht', hsub⟩ := subParam_joined hp hplain.2 s.trailing
        have hwithout : Without s.params (x :: params') := hparams ▸ hrest.cons x
        refine ⟨s.without hwithout ht', hedits.trans _ _ _ (s.edits_without hwithout ht'),
          Or.inl ?_⟩
        rw [subParam_append (not_prefix_param hp hplain.1 hfront (head_joined s.trailing)), hsub,
          Parts.text, Parts.body, Parts.without, textOf_cons]
        simp
  · obtain ⟨params', t', hwithout, ht', hsub⟩ := subParam_joined hp s.plainParams s.trailing
    refine ⟨s.without hwithout ht', hedits.trans _ _ _ (s.edits_without hwithout ht'),
      Or.inr ?_⟩
    rw [Parts.gapped, subParam_path hp s.plainPath (by rintro c ⟨⟩; decide),
      subParam_question hp, hsub]
    rfl

/-- The same path and parameters with other characters at the end. -/
def Parts.withTail (s : Parts) {t : List Char} (ht : ∀ c ∈ t, isTrailing c = true) : Parts :=
  ⟨s.path, s.params, t, s.plainPath, s.plainParams, ht⟩

theorem Parts.text_withTail (s : Parts) {t : List Char} (ht : ∀ c ∈ t, isTrailing c = true) :
    (s.withTail ht).text = s.body ++ t := rfl

theorem Parts.gapped_withTail (s : Parts) {t : List Char} (ht : ∀ c ∈ t, isTrailing c = true) :
    (s.withTail ht).gapped = s.path ++ '?' :: (joined s.params ++ t) := rfl

/-- In a text of one line the last character is dropped, or none. -/
theorem dropTrailing_concat {c : Char} (h : '\n' ∉ cs ++ [c]) :
    dropTrailing (cs ++ [c]) = if isTrailing c = true then cs else cs ++ [c] := by
  induction cs with
  | nil => simp [dropTrailing, isTrailing]
  | cons d cs ih =>
    have hrest : '\n' ∉ cs ++ [c] := fun hmem => h (List.mem_cons_of_mem d hmem)
    have hnext : ((cs ++ [c]).isEmpty || (cs ++ [c]).head? == some '\n') = false := by
      rw [Bool.or_eq_false_iff, beq_eq_false_iff_ne]
      exact ⟨by simp, fun hhead => hrest (List.mem_of_mem_head? hhead)⟩
    rw [List.cons_append, dropTrailing, hnext, Bool.and_false, if_neg Bool.false_ne_true, ih hrest]
    split
    · rfl
    · rfl

theorem Parts.one_line (s : Parts) : '\n' ∉ s.text ∧ '\n' ∉ s.gapped := by
  have htail : '\n' ∉ s.tail := fun h => absurd (s.trailing _ h) (by decide)
  have hpath : '\n' ∉ s.path := s.plainPath.free '\n' (by simp)
  have hparams : ∀ x ∈ s.params, '\n' ∉ x := fun x hx => (s.plainParams x hx).free '\n' (by simp)
  constructor
  · intro h
    rcases List.mem_append.mp h with h | h
    · rcases mem_textOf h with h | h | h | ⟨x, hx, h⟩
      · exact hpath h
      · cases h
      · cases h
      · exact hparams x hx h
    · exact htail h
  · intro h
    simp only [Parts.gapped, joined, List.mem_append, List.mem_cons, List.mem_flatMap] at h
    rcases h with h | h | ⟨x, hx, h | h⟩ | h
    · exact hpath h
    · cases h
    · cases h
    · exact hparams x hx h
    · exact htail h

theorem PlainPath.of_concat {path : List Char} {c : Char} (h : PlainPath (path ++ [c])) :
    PlainPath path where
  free := fun d hd hmem => h.free d hd (List.mem_append_left _ hmem)
  named := fun p hp hin => h.named p hp (hin.trans (List.prefix_append path [c]).isInfix)

theorem PlainParam.of_concat {x : List Char} {c : Char} (h : PlainParam (x ++ [c]))
    (hx : x ≠ []) : PlainParam x where
  filled := hx
  free := fun d hd hmem => h.free d hd (List.mem_append_left _ hmem)
  named := fun p hp hin => h.named p hp (by
    rw [List.tail_append_of_ne_nil hx]
    exact hin.trans (List.prefix_append x.tail [c]).isInfix)

/-- The last parameter loses its last character, and is gone if there is no other. -/
theorem Parts.shorter (s : Parts) {xs : List (List Char)} {x : List Char} {c : Char}
    (hparams : s.params = xs ++ [x ++ [c]]) (htail : s.tail = []) (hc : isTrailing c = true) :
    (∃ s' : Parts, EqvGen Edit s.body s'.body ∧ s.text = s'.text ++ [c]) ∧
      ∃ s' : Parts, EqvGen Edit s.body s'.body ∧ s.gapped = s'.gapped ++ [c] := by
  have hplain : PlainParam (x ++ [c]) := s.plainParams _ (by rw [hparams]; simp)
  have hrest : ∀ y ∈ xs, PlainParam y := fun y hy => s.plainParams y (by rw [hparams]; simp [hy])
  have hbody : s.body = (textOf s.path xs ++ (if xs = [] then '?' else '&') :: x) ++ [c] := by
    rw [Parts.body, hparams, textOf_snoc]
    simp
  have hgapped : s.gapped = s.path ++ '?' :: (joined xs ++ '&' :: x) ++ [c] := by
    rw [Parts.gapped, hparams, htail, joined_snoc]
    simp
  have hedit : EqvGen Edit s.body (textOf s.path xs ++ (if xs = [] then '?' else '&') :: x) := by
    rw [hbody]
    exact EqvGen.rel _ _ (.trailing hc)
  by_cases hx : x = []
  · -- what stands in front of the parameter is at the end now
    rw [hx] at hbody hgapped hedit
    have hsep : isTrailing (if xs = [] then '?' else '&') = true := by
      split
      · decide
      · decide
    have hedits : EqvGen Edit s.body (textOf s.path xs) :=
      hedit.trans _ _ _ (EqvGen.rel _ _ (.trailing hsep))
    refine ⟨⟨⟨s.path, xs, [if xs = [] then '?' else '&'], s.plainPath, hrest, by simpa using hsep⟩,
      hedits, ?_⟩, ⟨s.path, xs, ['&'], s.plainPath, hrest, by simp [isTrailing]⟩, hedits, hgapped⟩
    rw [Parts.text, htail, List.append_nil, hbody]
    rfl
  · have hparams' : ∀ y ∈ xs ++ [x], PlainParam y := by
      intro y hy
      rcases List.mem_append.mp hy with hy | hy
      · exact hrest y hy
      · rw [List.mem_singleton.mp hy]
        exact hplain.of_concat hx
    let s' : Parts := ⟨s.path, xs ++ [x], [], s.plainPath, hparams', by simp⟩
    have hshort : s'.body = textOf s.path xs ++ (if xs = [] then '?' else '&') :: x :=
      textOf_snoc s.path xs x
    refine ⟨⟨s', hshort ▸ hedit, ?_⟩, s', hshort ▸ hedit, ?_⟩
    · rw [Parts.text, htail, List.append_nil, hbody, Parts.text, hshort, List.append_nil]
    · rw [hgapped, Parts.gapped, joined_snoc, List.append_nil]

theorem Near.of_last {c : Char} (hline : '\n' ∉ cs ++ [c]) (h : Near w (cs ++ [c]))
    (hdropped : isTrailing c = true → Near w cs) : Near w (dropTrailing (cs ++ [c])) := by
  rw [dropTrailing_concat hline]
  split
  · next hc => exact hdropped hc
  · exact h

/-- Without parameters it is a character of the path. -/
theorem Near.dropped_path {s : Parts} (hedits : EqvGen Edit w s.body) (hparams : s.params = [])
    (hline : '\n' ∉ s.path) : Near w (dropTrailing s.path) := by
  have hnear : ∀ {q : List Char}, s.path = q → Near w q := by
    rintro q rfl
    refine ⟨⟨s.path, [], [], s.plainPath, by simp, by simp⟩, ?_, Or.inl ?_⟩
    · rwa [Parts.body, hparams] at hedits
    · rw [Parts.text, Parts.body, textOf, List.append_nil]
  rcases List.eq_nil_or_concat' s.path with hpath | ⟨q, c, hpath⟩
  · rw [hpath]
    exact hnear hpath
  · rw [hpath] at hline ⊢
    refine (hnear hpath).of_last hline fun hc => ?_
    have hedit : EqvGen Edit s.body q := by
      rw [Parts.body, hparams, textOf, hpath]
      exact EqvGen.rel _ _ (.trailing hc)
    refine ⟨⟨q, [], [], (hpath ▸ s.plainPath).of_concat, by simp, by simp⟩,
      hedits.trans _ _ _ hedit, Or.inl ?_⟩
    rw [Parts.text, Parts.body, textOf, List.append_nil]

/-- **Dropping a character at the end is an edit.** -/
theorem Near.dropped (h : Near w cs) : Near w (dropTrailing cs) := by
  obtain ⟨s, hedits, hcs⟩ := h
  have hnear : Near w cs := ⟨s, hedits, hcs⟩
  have hline : '\n' ∉ cs := by
    rcases hcs with rfl | rfl
    · exact s.one_line.1
    · exact s.one_line.2
  rcases List.eq_nil_or_concat' s.tail with htail | ⟨t, c, htail⟩
  · rcases List.eq_nil_or_concat' s.params with hparams | ⟨xs, x, hparams⟩
    · have htext : s.text = s.path := by
        rw [Parts.text, Parts.body, hparams, htail, textOf, List.append_nil]
      rcases hcs with rfl | rfl
      · rw [htext] at hline ⊢
        exact Near.dropped_path hedits hparams hline
      · have hgapped : s.gapped = s.path ++ ['?'] := by
          rw [Parts.gapped, hparams, htail]
          rfl
        rw [hgapped] at hnear hline ⊢
        exact hnear.of_last hline fun _ => ⟨s, hedits, Or.inl htext.symm⟩
    · have hx : PlainParam x := s.plainParams x (by rw [hparams]; simp)
      obtain ⟨y, c, rfl⟩ := (List.eq_nil_or_concat' x).resolve_left hx.filled
      rcases hcs with rfl | rfl
      · have htext : s.text =
            textOf s.path xs ++ (if xs = [] then '?' else '&') :: y ++ [c] := by
          rw [Parts.text, Parts.body, hparams, htail, textOf_snoc]
          simp
        rw [htext] at hnear hline ⊢
        refine hnear.of_last hline fun hc => ?_
        obtain ⟨⟨s', hs', hshort⟩, -⟩ := s.shorter hparams htail hc
        rw [htext] at hshort
        exact ⟨s', hedits.trans _ _ _ hs', Or.inl (List.append_cancel_right hshort)⟩
      · have hgapped : s.gapped = s.path ++ '?' :: (joined xs ++ '&' :: y) ++ [c] := by
          rw [Parts.gapped, hparams, htail, joined_snoc]
          simp
        rw [hgapped] at hnear hline ⊢
        refine hnear.of_last hline fun hc => ?_
        obtain ⟨-, s', hs', hshort⟩ := s.shorter hparams htail hc
        rw [hgapped] at hshort
        exact ⟨s', hedits.trans _ _ _ hs', Or.inr (List.append_cancel_right hshort)⟩
  · have ht : ∀ d ∈ t, isTrailing d = true := fun d hd => s.trailing d (by rw [htail]; simp [hd])
    rcases hcs with rfl | rfl
    · have htext : s.text = (s.withTail ht).text ++ [c] := by
        rw [Parts.text_withTail, Parts.text, htail, List.append_assoc]
      rw [htext] at hnear hline ⊢
      exact hnear.of_last hline fun _ => ⟨s.withTail ht, hedits, Or.inl rfl⟩
    · have hgapped : s.gapped = (s.withTail ht).gapped ++ [c] := by
        rw [Parts.gapped_withTail, Parts.gapped, htail]
        simp
      rw [hgapped] at hnear hline ⊢
      exact hnear.of_last hline fun _ => ⟨s.withTail ht, hedits, Or.inr rfl⟩

/-! ### The last step closes the gap -/

theorem subQuestion_append {a : List Char} (ha : '?' ∉ a) (t : List Char) :
    subQuestion (a ++ t) = a ++ subQuestion t := by
  induction a with
  | nil => rfl
  | cons c a ih =>
    rw [List.mem_cons, not_or] at ha
    rw [List.cons_append, subQuestion, ih ha.2]
    · rfl
    · exact fun _ hc => absurd hc.symm ha.1

theorem subQuestion_question {t : List Char} (ht : t.head? ≠ some '&') :
    subQuestion ('?' :: t) = '?' :: subQuestion t := by
  rw [subQuestion]
  rintro cs - rfl
  exact ht rfl

/-- **After the last step the text is plain**, and has come from the first by edits. -/
theorem Near.closed (h : Near w cs) :
    ∃ s : Parts, EqvGen Edit w s.body ∧ subQuestion cs = s.text := by
  obtain ⟨s, hedits, hcs⟩ := h
  have htail : ∀ c ∈ subQuestion s.tail, isTrailing c = true :=
    fun c hc => s.trailing c ((subQuestion_sublist s.tail).subset hc)
  have hpath : '?' ∉ s.path := s.plainPath.free '?' (by simp)
  cases hparams : s.params with
  | nil =>
    rcases hcs with rfl | rfl
    · refine ⟨s.withTail htail, hedits, ?_⟩
      rw [Parts.text_withTail, Parts.text, Parts.body, hparams, textOf, subQuestion_append hpath]
    · have hquestion : ∀ c ∈ subQuestion ('?' :: s.tail), isTrailing c = true := by
        intro c hc
        rcases List.mem_cons.mp ((subQuestion_sublist _).subset hc) with rfl | hc
        · decide
        · exact s.trailing c hc
      refine ⟨s.withTail hquestion, hedits, ?_⟩
      rw [Parts.text_withTail, Parts.gapped, Parts.body, hparams, textOf, subQuestion_append hpath]
      rfl
  | cons x xs =>
    have hplain := List.forall_mem_cons.mp (hparams ▸ s.plainParams)
    have hfree : '?' ∉ x ++ joined xs := by
      simp only [joined, List.mem_append, List.mem_flatMap, List.mem_cons, not_or, not_exists,
        not_and]
      exact ⟨hplain.1.free '?' (by simp), fun y hy =>
        ⟨by decide, (hplain.2 y hy).free '?' (by simp)⟩⟩
    have hrest : subQuestion (x ++ joined xs ++ s.tail) =
        x ++ joined xs ++ subQuestion s.tail := subQuestion_append hfree s.tail
    have hclosed : (s.withTail htail).text =
        s.path ++ '?' :: (x ++ joined xs ++ subQuestion s.tail) := by
      rw [Parts.text_withTail, Parts.body, hparams, textOf_cons]
      simp
    refine ⟨s.withTail htail, hedits, ?_⟩
    rw [hclosed]
    rcases hcs with rfl | rfl
    · have hhead : (x ++ joined xs ++ s.tail).head? ≠ some '&' := by
        obtain ⟨c, ys, rfl⟩ := List.exists_cons_of_ne_nil hplain.1.filled
        rintro hc
        obtain rfl := Option.some.inj hc
        exact hplain.1.free '&' (by simp) List.mem_cons_self
      have htext : s.text = s.path ++ '?' :: (x ++ joined xs ++ s.tail) := by
        rw [Parts.text, Parts.body, hparams, textOf_cons]
        simp
      rw [htext, subQuestion_append hpath, subQuestion_question hhead, hrest]
    · have hgapped : s.gapped = s.path ++ '?' :: '&' :: (x ++ joined xs ++ s.tail) := by
        rw [Parts.gapped, hparams]
        simp [joined]
      rw [hgapped, subQuestion_append hpath, subQuestion, hrest]

/-- Characters at the end are edits. -/
theorem Parts.edits_text (s : Parts) : EqvGen Edit s.body s.text := by
  have hall : ∀ t : List Char, (∀ c ∈ t, isTrailing c = true) →
      EqvGen Edit s.body (s.body ++ t) := by
    intro t ht
    induction t using List.reverseRecOn with
    | nil =>
      rw [List.append_nil]
      exact EqvGen.refl _
    | append_singleton t c ih =>
      rw [← List.append_assoc]
      exact (ih fun d hd => ht d (List.mem_append_left _ hd)).trans _ _ _
        (EqvGen.symm _ _ (EqvGen.rel _ _ (.trailing (ht c (by simp)))))
  exact hall s.tail s.trailing

/-- **Everything that is taken out of a plain text is taken out by edits**, and what is left
is plain. -/
theorem Plain.edits (h : Plain cs) : Plain (takeOut cs) ∧ EqvGen Edit cs (takeOut cs) := by
  obtain ⟨s, rfl⟩ := h
  have hstart : Near s.text s.text :=
    ⟨s, EqvGen.symm _ _ s.edits_text, Or.inl rfl⟩
  have hparams : ∀ ps : List String, (∀ p ∈ ps, p ∈ protocolParams) → ∀ cs, Near s.text cs →
      Near s.text (ps.foldl (fun cs p => subParam p cs) cs) := by
    intro ps hps
    induction ps with
    | nil => exact fun cs h => h
    | cons p ps ih =>
      rw [List.forall_mem_cons] at hps
      exact fun cs h => ih hps.2 _ (h.taken hps.1)
  obtain ⟨s', hedits, htext⟩ :=
    (hparams protocolParams (fun p hp => hp) s.text hstart).dropped.closed
  have htaken : takeOut s.text = s'.text := htext
  rw [htaken]
  exact ⟨⟨s', rfl⟩, hedits.trans _ _ _ s'.edits_text⟩

/-! ### Spaces for plus signs -/

theorem eq_of_plus {c d : Char} (h : plus c = d) (hd : d ≠ '+') : c = d := by
  unfold plus at h
  split at h
  · exact absurd h.symm hd
  · exact h

theorem plus_plus (cs : List Char) : (cs.map plus).map plus = cs.map plus := by
  rw [map_plus_eq_iff]
  intro h
  obtain ⟨c, -, hc⟩ := List.mem_map.mp h
  obtain rfl := eq_of_plus hc (by decide)
  exact absurd hc (by decide)

theorem not_mem_map_plus {c : Char} (hc : c ≠ '+') (h : c ∉ cs) : c ∉ cs.map plus := by
  intro hmem
  obtain ⟨d, hd, hplus⟩ := List.mem_map.mp hmem
  exact h (eq_of_plus hplus hc ▸ hd)

/-- No name comes with the plus signs. -/
theorem hasParam_of_map (hp : p ∈ protocolParams) (h : HasParam p (cs.map plus)) :
    HasParam p cs := by
  obtain ⟨a, b, hab⟩ := h
  obtain ⟨f, b', rfl, hf, -⟩ := List.map_eq_append_iff.mp hab.symm
  obtain ⟨a', w, rfl, -, hw⟩ := List.map_eq_append_iff.mp hf
  have hnone : ∀ p ∈ protocolParams, '+' ∉ paramWord p := by decide
  have hspace : ' ' ∉ w := fun hmem => hnone p hp (hw ▸ List.mem_map.mpr ⟨' ', hmem, rfl⟩)
  rw [map_plus_eq_iff.mpr hspace] at hw
  exact ⟨a', b', by rw [hw]⟩

theorem textOf_map (path : List Char) (params : List (List Char)) :
    textOf (path.map plus) (params.map (List.map plus)) = (textOf path params).map plus := by
  induction params using List.reverseRecOn with
  | nil => rfl
  | append_singleton xs x ih =>
    have hsep : plus (if xs = [] then '?' else '&') = if xs = [] then '?' else '&' := by
      split
      · rfl
      · rfl
    rw [List.map_append, List.map_singleton, textOf_snoc, textOf_snoc, ih, List.map_append,
      List.map_cons, hsep]
    simp

theorem isProtocolParam_map {x : List Char} (h : isProtocolParam x = true) :
    isProtocolParam (x.map plus) = true := by
  obtain ⟨p, hp, hname⟩ := List.any_eq_true.mp h
  refine List.any_eq_true.mpr ⟨p, hp, ?_⟩
  rw [beq_iff_eq] at hname ⊢
  have hsame : ((fun c => c != '=') ∘ plus) = fun c => c != '=' := by
    funext c
    unfold plus
    by_cases hc : c = ' '
    · simp [hc]
    · simp [hc]
  have hspace : ∀ p ∈ protocolParams, p.toList.map plus = p.toList := by decide
  rw [List.takeWhile_map, hsame, hname, hspace p hp]

theorem Edit.map {ds : List Char} (h : Edit cs ds) : Edit (cs.map plus) (ds.map plus) := by
  cases h with
  | @param path xs x ys fragment hpath hparams hfragment hx =>
    have hparams' : ∀ y ∈ xs.map (List.map plus) ++ x.map plus :: ys.map (List.map plus),
        '&' ∉ y ∧ '#' ∉ y := by
      rw [← List.map_cons, ← List.map_append]
      intro y hy
      obtain ⟨z, hz, rfl⟩ := List.mem_map.mp hy
      exact ⟨not_mem_map_plus (by decide) (hparams z hz).1,
        not_mem_map_plus (by decide) (hparams z hz).2⟩
    have hfragment' : ∀ c ∈ (fragment.map plus).head?, c = '#' := by
      cases fragment with
      | nil => simp
      | cons d ds =>
        obtain rfl := hfragment d rfl
        rintro c ⟨⟩
        rfl
    have hpath' : '?' ∉ path.map plus ∧ '#' ∉ path.map plus :=
      ⟨not_mem_map_plus (by decide) hpath.1, not_mem_map_plus (by decide) hpath.2⟩
    have hedit := Edit.param hpath' hparams' hfragment' (isProtocolParam_map hx)
    rwa [← List.map_cons, ← List.map_append, ← List.map_append, textOf_map, textOf_map,
      ← List.map_append, ← List.map_append] at hedit
  | @trailing _ c hc =>
    have hplus : plus c = c := by
      unfold plus
      split
      · next hspace =>
        rw [hspace] at hc
        exact absurd hc (by decide)
      · rfl
    rw [List.map_append, List.map_singleton, hplus]
    exact .trailing hc

theorem edits_map {ds : List Char} (h : EqvGen Edit cs ds) :
    EqvGen Edit (cs.map plus) (ds.map plus) := by
  induction h with
  | rel _ _ h => exact EqvGen.rel _ _ h.map
  | refl _ => exact EqvGen.refl _
  | symm _ _ _ ih => exact EqvGen.symm _ _ ih
  | trans _ _ _ _ _ ih ih' => exact EqvGen.trans _ _ _ ih ih'

/-- A plain text is plain with plus signs for its spaces. -/
theorem Plain.map (h : Plain cs) : Plain (cs.map plus) := by
  obtain ⟨s, rfl⟩ := h
  have hpath : PlainPath (s.path.map plus) := by
    refine ⟨fun c hc => not_mem_map_plus ?_ (s.plainPath.free c hc), fun p hp h => ?_⟩
    · rintro rfl
      exact absurd hc (by decide)
    · exact s.plainPath.named p hp (hasParam_of_map hp h)
  have hparams : ∀ y ∈ s.params.map (List.map plus), PlainParam y := by
    intro y hy
    obtain ⟨x, hx, rfl⟩ := List.mem_map.mp hy
    have hplain := s.plainParams x hx
    refine ⟨by simpa using hplain.filled, fun c hc => not_mem_map_plus ?_ (hplain.free c hc),
      fun p hp h => hplain.named p hp (hasParam_of_map hp ?_)⟩
    · rintro rfl
      exact absurd hc (by decide)
    · rwa [List.map_tail]
  have htail : s.tail.map plus = s.tail := by
    refine map_plus_eq_iff.mpr fun h => ?_
    exact absurd (s.trailing ' ' h) (by decide)
  refine ⟨⟨_, _, s.tail, hpath, hparams, s.trailing⟩, ?_⟩
  rw [Parts.text, Parts.body, textOf_map, Parts.text, List.map_append, htail]
  rfl

/-! ### Plain services are told apart -/

/-- The ticket of a login for `u` is accepted by a validation for `v`. -/
def AcceptedFor (u v : String) : Prop :=
  cleanServiceUrl (cleanServiceUrl u) = cleanServiceUrl (cleanServiceUrl v)

variable {u v : String}

/-- Cleaning a plain service is a sequence of edits. -/
theorem Plain.clean (h : Plain u.toList) :
    Plain (cleanServiceUrl u).toList ∧ Alike u (cleanServiceUrl u) := by
  by_cases hblank : isBlank u = true
  · rw [cleanServiceUrl_of_blank hblank]
    exact ⟨h, Alike.refl u⟩
  · have hedits := edits_map h.edits.2
    rw [Alike, cleanServiceUrl_of_not_blank hblank, String.toList_ofList, plus_plus]
    exact ⟨h.edits.1.map, hedits⟩

/-- **If the ticket of a plain service is accepted for another, the two are alike.** -/
theorem alike_of_plain (hu : Plain u.toList) (hv : Plain v.toList) (h : AcceptedFor u v) :
    Alike u v := by
  have hu₂ : Alike u (cleanServiceUrl (cleanServiceUrl u)) :=
    EqvGen.trans _ _ _ hu.clean.2 hu.clean.1.clean.2
  have hv₂ : Alike v (cleanServiceUrl (cleanServiceUrl v)) :=
    EqvGen.trans _ _ _ hv.clean.2 hv.clean.1.clean.2
  rw [← h] at hv₂
  exact EqvGen.trans _ _ _ hu₂ (EqvGen.symm _ _ hv₂)

/-- A service with a ticket and a slash at the end is plain. -/
example : Plain "http://app.example/p?a=1&ticket=ST-1/".toList := by
  have hpath : PlainPath "http://app.example/p".toList := ⟨by simp, by decide⟩
  have hparams : ∀ x ∈ ["a=1".toList, "ticket=ST-1".toList], PlainParam x :=
    List.forall_mem_cons.mpr ⟨⟨by decide, by simp, by decide⟩,
      List.forall_mem_singleton.mpr ⟨by decide, by simp, by decide⟩⟩
  exact ⟨⟨_, _, ['/'], hpath, hparams, by simp [isTrailing]⟩, rfl⟩

end BkPlatform.Cas
