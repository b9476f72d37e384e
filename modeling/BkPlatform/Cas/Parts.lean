import BkPlatform.Cas.Cleaning
import Mathlib.Data.List.DropRight
import Mathlib.Logic.Relation

/-!
# The parts of a service

A service is a path, a query and a fragment; the query is a list of parameters.  Two
services are alike when one can be had from the other by putting in and taking out
parameters of the protocol and characters at the end, a space and a plus sign being one.
What is left of the path, of the other parameters and of the fragment tells services apart.

## Main definitions

* `textOf` — a path with its parameters.
* `Edit` — a parameter of the protocol, or a character at the end, is taken out.
* `Alike` — two services differ in nothing else.

## Main results

* `Alike.path`, `Alike.params`, `Alike.fragment` — what services that are alike have in
  common.
-/

namespace BkPlatform.Cas

/-! ### Path, parameters, fragment -/

/-- The path, and behind a `?` the parameters with an `&` between them. -/
def textOf (path : List Char) : List (List Char) → List Char
  | [] => path
  | x :: xs => path ++ '?' :: ['&'].intercalate (x :: xs)

/-- What stands in front of the `#`. -/
def frontOf (cs : List Char) : List Char := cs.takeWhile fun c => c != '#'

/-- What stands behind it. -/
def fragmentOf (cs : List Char) : List Char := (cs.dropWhile fun c => c != '#').drop 1

/-- What stands in front of the `?`. -/
def pathOf (cs : List Char) : List Char := (frontOf cs).takeWhile fun c => c != '?'

/-- The parameters behind it. -/
def paramsOf (cs : List Char) : List (List Char) :=
  (((frontOf cs).dropWhile fun c => c != '?').drop 1).splitOn '&'

/-- The parameter is named exactly like one of the protocol. -/
def isProtocolParam (param : List Char) : Bool :=
  protocolParams.any fun p => param.takeWhile (fun c => c != '=') == p.toList

/-- A parameter of the protocol is taken out of the query, or a slash, a question mark or an
ampersand off the end. -/
inductive Edit : List Char → List Char → Prop
  | param {path : List Char} {xs : List (List Char)} {x : List Char} {ys : List (List Char)}
      {fragment : List Char} (hpath : '?' ∉ path ∧ '#' ∉ path)
      (hparams : ∀ y ∈ xs ++ x :: ys, '&' ∉ y ∧ '#' ∉ y)
      (hfragment : ∀ c ∈ fragment.head?, c = '#') (hx : isProtocolParam x = true) :
      Edit (textOf path (xs ++ x :: ys) ++ fragment) (textOf path (xs ++ ys) ++ fragment)
  | trailing {cs : List Char} {c : Char} (hc : isTrailing c = true) : Edit (cs ++ [c]) cs

/-- **Two services differ only in the parameters of the protocol, in `/`, `?` and `&` at the
end, and in spaces for plus signs.** -/
def Alike (u v : String) : Prop :=
  Relation.EqvGen Edit (u.toList.map plus) (v.toList.map plus)

theorem Alike.refl (u : String) : Alike u u := Relation.EqvGen.refl _

/-- A property that no edit changes is one that services that are alike have in common. -/
theorem eq_of_edits {α : Type} {f : List Char → α} (hf : ∀ {cs ds}, Edit cs ds → f cs = f ds)
    {cs ds : List Char} (h : Relation.EqvGen Edit cs ds) : f cs = f ds := by
  induction h with
  | rel _ _ h => exact hf h
  | refl _ => rfl
  | symm _ _ _ ih => exact ih.symm
  | trans _ _ _ _ _ ih ih' => exact ih.trans ih'

/-! ### The parts of a text that is put together -/

section Together

variable {path fragment : List Char} {x : List Char} {xs params : List (List Char)}

theorem intercalate_snoc (xs : List (List Char)) (x : List Char) :
    ['&'].intercalate (xs ++ [x]) =
      if xs = [] then x else ['&'].intercalate xs ++ '&' :: x := by
  induction xs with
  | nil => simp
  | cons y ys ih =>
    cases ys with
    | nil => simp
    | cons z zs =>
      rw [List.cons_append, List.cons_append, List.intercalate_cons_cons,
        List.intercalate_cons_cons, ← List.cons_append, ih]
      simp

/-- The last parameter stands behind the `?` or an `&`. -/
theorem textOf_snoc (path : List Char) (xs : List (List Char)) (x : List Char) :
    textOf path (xs ++ [x]) = textOf path xs ++ (if xs = [] then '?' else '&') :: x := by
  cases xs with
  | nil => simp [textOf]
  | cons y ys =>
    have h := intercalate_snoc (y :: ys) x
    rw [List.cons_append] at h
    rw [List.cons_append, textOf, textOf, h]
    simp

theorem mem_textOf {c : Char} (h : c ∈ textOf path params) :
    c ∈ path ∨ c = '?' ∨ c = '&' ∨ ∃ x ∈ params, c ∈ x := by
  induction params using List.reverseRecOn with
  | nil => exact Or.inl h
  | append_singleton xs x ih =>
    rw [textOf_snoc, List.mem_append, List.mem_cons] at h
    rcases h with h | h | h
    · rcases ih h with h | h | h | ⟨y, hy, hc⟩
      · exact Or.inl h
      · exact Or.inr (Or.inl h)
      · exact Or.inr (Or.inr (Or.inl h))
      · exact Or.inr (Or.inr (Or.inr ⟨y, List.mem_append_left _ hy, hc⟩))
    · split at h
      · exact Or.inr (Or.inl h)
      · exact Or.inr (Or.inr (Or.inl h))
    · exact Or.inr (Or.inr (Or.inr ⟨x, by simp, h⟩))

theorem hash_not_mem_textOf (hpath : '#' ∉ path) (hparams : ∀ x ∈ params, '#' ∉ x) :
    '#' ∉ textOf path params := by
  intro h
  rcases mem_textOf h with h | h | h | ⟨x, hx, h⟩
  · exact hpath h
  · cases h
  · cases h
  · exact hparams x hx h

theorem bne_of_not_mem {c : Char} {a : List Char} (ha : c ∉ a) : ∀ d ∈ a, (d != c) = true := by
  intro d hd
  refine bne_iff_ne.mpr ?_
  rintro rfl
  exact ha hd

theorem takeWhile_ne_append {c : Char} {a b : List Char} (ha : c ∉ a)
    (hb : ∀ d ∈ b.head?, d = c) : (a ++ b).takeWhile (fun d => d != c) = a := by
  rw [List.takeWhile_append_of_pos (bne_of_not_mem ha)]
  cases b with
  | nil => simp
  | cons d ds =>
    obtain rfl := hb d rfl
    simp

theorem dropWhile_ne_append {c : Char} {a b : List Char} (ha : c ∉ a)
    (hb : ∀ d ∈ b.head?, d = c) : (a ++ b).dropWhile (fun d => d != c) = b := by
  rw [List.dropWhile_append_of_pos (bne_of_not_mem ha)]
  cases b with
  | nil => rfl
  | cons d ds =>
    obtain rfl := hb d rfl
    simp

theorem frontOf_append {a : List Char} (ha : '#' ∉ a) (hf : ∀ c ∈ fragment.head?, c = '#') :
    frontOf (a ++ fragment) = a := takeWhile_ne_append ha hf

theorem frontOf_of_not_mem {a : List Char} (ha : '#' ∉ a) : frontOf a = a := by
  have h := @frontOf_append [] a ha (by simp)
  rwa [List.append_nil] at h

theorem fragmentOf_append {a : List Char} (ha : '#' ∉ a) (b : List Char) :
    fragmentOf (a ++ b) = fragmentOf b := by
  rw [fragmentOf, List.dropWhile_append_of_pos (bne_of_not_mem ha), fragmentOf]

theorem fragmentOf_hash {a : List Char} (ha : '#' ∉ a) (b : List Char) :
    fragmentOf (a ++ '#' :: b) = b := by
  rw [fragmentOf_append ha]
  rfl

theorem pathOf_textOf (hpath : '?' ∉ path) (hfront : '#' ∉ textOf path params)
    (hf : ∀ c ∈ fragment.head?, c = '#') : pathOf (textOf path params ++ fragment) = path := by
  rw [pathOf, frontOf_append hfront hf]
  cases params with
  | nil =>
    have h := @takeWhile_ne_append '?' path [] hpath (by simp)
    rwa [List.append_nil] at h
  | cons x xs => exact takeWhile_ne_append hpath (by simp)

theorem paramsOf_textOf (hpath : '?' ∉ path) (hfront : '#' ∉ textOf path params)
    (hparams : ∀ x ∈ params, '&' ∉ x) (hf : ∀ c ∈ fragment.head?, c = '#') :
    paramsOf (textOf path params ++ fragment) = if params = [] then [[]] else params := by
  rw [paramsOf, frontOf_append hfront hf]
  cases params with
  | nil =>
    have h := @dropWhile_ne_append '?' path [] hpath (by simp)
    rw [List.append_nil] at h
    rw [textOf, h]
    rfl
  | cons x xs =>
    rw [textOf, dropWhile_ne_append hpath (by simp), List.drop_one, List.tail_cons,
      List.splitOn_intercalate '&' hparams (List.cons_ne_nil x xs), if_neg (List.cons_ne_nil x xs)]

end Together

/-! ### What an edit leaves -/

/-- Without the slashes, question marks and ampersands at the end. -/
def dropEnd (cs : List Char) : List Char := cs.rdropWhile isTrailing

/-- What is left of the parameters: those that are not of the protocol, nor empty. -/
def leftOf (params : List (List Char)) : List (List Char) :=
  (params.map dropEnd).filter fun x => !x.isEmpty && !isProtocolParam x

@[simp] theorem dropEnd_concat {c : Char} (hc : isTrailing c = true) (cs : List Char) :
    dropEnd (cs ++ [c]) = dropEnd cs := List.rdropWhile_concat_pos isTrailing cs c hc

@[simp] theorem leftOf_append (xs ys : List (List Char)) :
    leftOf (xs ++ ys) = leftOf xs ++ leftOf ys := by
  rw [leftOf, List.map_append, List.filter_append]
  rfl

@[simp] theorem leftOf_nil : leftOf [[]] = [] := by decide

theorem leftOf_singleton {x y : List Char} (h : dropEnd x = dropEnd y) :
    leftOf [x] = leftOf [y] := by
  simp only [leftOf, List.map_cons, List.map_nil, h]

/-- A parameter of the protocol is one without what stands at its end. -/
theorem isProtocolParam_dropEnd {x : List Char} (h : isProtocolParam x = true) :
    isProtocolParam (dropEnd x) = true := by
  obtain ⟨p, hp, hname⟩ := List.any_eq_true.mp h
  refine List.any_eq_true.mpr ⟨p, hp, ?_⟩
  rw [beq_iff_eq] at hname ⊢
  have hsplit : dropEnd x ++ x.rtakeWhile isTrailing = x := List.rdropWhile_append_rtakeWhile
  by_cases heq : '=' ∈ dropEnd x
  · -- the name stands in what is left
    obtain ⟨a, b, hab, hfree⟩ := List.eq_append_cons_of_mem heq
    rw [← hsplit, hab, List.append_assoc,
      takeWhile_ne_append hfree (by rintro d ⟨⟩; rfl)] at hname
    rw [hab, takeWhile_ne_append hfree (by rintro d ⟨⟩; rfl), hname]
  · have hnone : '=' ∉ x := by
      rw [← hsplit, List.mem_append, not_or]
      exact ⟨heq, fun hmem => absurd (List.mem_rtakeWhile_imp hmem) (by decide)⟩
    have hx : x = p.toList := by
      rwa [← List.append_nil x, takeWhile_ne_append hnone (by simp)] at hname
    have hkept : ∀ p ∈ protocolParams,
        (dropEnd p.toList).takeWhile (fun c => c != '=') = p.toList := by decide
    rw [hx]
    exact hkept p hp

theorem leftOf_protocolParam {x : List Char} (h : isProtocolParam x = true) :
    leftOf [x] = [] := by
  simp [leftOf, isProtocolParam_dropEnd h]

/-- A character at the end of the query goes with the last parameter. -/
theorem leftOf_concat {c : Char} (hc : isTrailing c = true) (q : List Char) :
    leftOf ((q ++ [c]).splitOn '&') = leftOf (q.splitOn '&') := by
  by_cases hamp : c = '&'
  · rw [hamp, List.splitOn_append_cons_self, List.splitOn_nil, leftOf_append, leftOf_nil,
      List.append_nil]
  · -- behind the last `&`
    have hlast : ∃ xs b, '&' ∉ b ∧ ∀ e, '&' ∉ e → (q ++ e).splitOn '&' = xs ++ [b ++ e] := by
      induction q with
      | nil => exact ⟨[], [], by simp, fun e he => List.splitOn_eq_singleton he⟩
      | cons d q ih =>
        obtain ⟨xs, b, hb, h⟩ := ih
        by_cases hd : d = '&'
        · refine ⟨[] :: xs, b, hb, fun e he => ?_⟩
          rw [List.cons_append, List.splitOn_cons_eq_if_modifyHead, if_pos (by simp [hd]), h e he]
          rfl
        · cases xs with
          | nil =>
            refine ⟨[], d :: b, by simp [hb, Ne.symm hd], fun e he => ?_⟩
            rw [List.cons_append, List.splitOn_cons_eq_if_modifyHead, if_neg (by simp [hd]),
              h e he]
            rfl
          | cons x xs =>
            refine ⟨(d :: x) :: xs, b, hb, fun e he => ?_⟩
            rw [List.cons_append, List.splitOn_cons_eq_if_modifyHead, if_neg (by simp [hd]),
              h e he]
            rfl
    obtain ⟨xs, b, -, h⟩ := hlast
    have hnil := h [] List.not_mem_nil
    rw [List.append_nil, List.append_nil] at hnil
    rw [h [c] (by simp [Ne.symm hamp]), hnil, leftOf_append, leftOf_append,
      leftOf_singleton (dropEnd_concat hc b)]

/-! ### What services that are alike have in common -/

/-- A character at the end of a text without `#` is at the end of its front, one of a text
with it at the end of the fragment. -/
theorem frontOf_concat {c : Char} (hc : isTrailing c = true) (cs : List Char) :
    frontOf (cs ++ [c]) = cs ++ [c] ∧ frontOf cs = cs ∧ fragmentOf (cs ++ [c]) = [] ∧
        fragmentOf cs = [] ∨
      frontOf (cs ++ [c]) = frontOf cs ∧ fragmentOf (cs ++ [c]) = fragmentOf cs ++ [c] := by
  have hne : c ≠ '#' := by
    rintro rfl
    exact absurd hc (by decide)
  by_cases h : '#' ∈ cs
  · obtain ⟨a, b, rfl, hfree⟩ := List.eq_append_cons_of_mem h
    refine Or.inr ⟨?_, ?_⟩
    · rw [List.append_assoc, frontOf_append hfree (by simp), frontOf_append hfree (by simp)]
    · rw [List.append_assoc, List.cons_append, fragmentOf_hash hfree, fragmentOf_hash hfree]
  · have hfree : '#' ∉ cs ++ [c] := by simp [h, Ne.symm hne]
    have hfragment : ∀ {a : List Char}, '#' ∉ a → fragmentOf a = [] := by
      intro a ha
      rw [← List.append_nil a, fragmentOf_append ha]
      rfl
    exact Or.inl ⟨frontOf_of_not_mem hfree, frontOf_of_not_mem h, hfragment hfree, hfragment h⟩

/-- At the end of a front it is at the end of the path or of the query. -/
theorem query_concat {c : Char} (hc : isTrailing c = true) (cs : List Char) :
    dropEnd ((cs ++ [c]).takeWhile fun d => d != '?') =
        dropEnd (cs.takeWhile fun d => d != '?') ∧
      leftOf ((((cs ++ [c]).dropWhile fun d => d != '?').drop 1).splitOn '&') =
        leftOf (((cs.dropWhile fun d => d != '?').drop 1).splitOn '&') := by
  by_cases h : '?' ∈ cs
  · obtain ⟨a, q, rfl, hfree⟩ := List.eq_append_cons_of_mem h
    rw [List.append_assoc, List.cons_append, takeWhile_ne_append hfree (by simp),
      takeWhile_ne_append hfree (by simp), dropWhile_ne_append hfree (by simp),
      dropWhile_ne_append hfree (by simp)]
    exact ⟨rfl, leftOf_concat hc q⟩
  · have htake := @takeWhile_ne_append '?' cs [] h (by simp)
    have hdrop := @dropWhile_ne_append '?' cs [] h (by simp)
    rw [List.append_nil] at htake hdrop
    rw [htake, hdrop]
    by_cases hquestion : c = '?'
    · rw [hquestion, takeWhile_ne_append h (by simp), dropWhile_ne_append h (by simp)]
      exact ⟨rfl, rfl⟩
    · have hfree : '?' ∉ cs ++ [c] := by simp [h, Ne.symm hquestion]
      have htake' := @takeWhile_ne_append '?' (cs ++ [c]) [] hfree (by simp)
      have hdrop' := @dropWhile_ne_append '?' (cs ++ [c]) [] hfree (by simp)
      rw [List.append_nil] at htake' hdrop'
      rw [htake', hdrop']
      exact ⟨dropEnd_concat hc cs, rfl⟩

variable {cs ds : List Char}

theorem mem_of_mem_rest {x y : List Char} {xs ys : List (List Char)} (h : y ∈ xs ++ ys) :
    y ∈ xs ++ x :: ys := by
  rcases List.mem_append.mp h with h | h
  · exact List.mem_append_left _ h
  · exact List.mem_append_right _ (List.mem_cons_of_mem _ h)

theorem Edit.path (h : Edit cs ds) : dropEnd (pathOf cs) = dropEnd (pathOf ds) := by
  cases h with
  | param hpath hparams hfragment hx =>
    rw [pathOf_textOf hpath.1 (hash_not_mem_textOf hpath.2 fun y hy => (hparams y hy).2) hfragment,
      pathOf_textOf hpath.1 (hash_not_mem_textOf hpath.2 fun y hy =>
        (hparams y (mem_of_mem_rest hy)).2) hfragment]
  | trailing hc =>
    unfold pathOf
    rcases frontOf_concat hc ds with ⟨hfront, hfront', -, -⟩ | ⟨hfront, -⟩
    · rw [hfront, hfront']
      exact (query_concat hc ds).1
    · rw [hfront]

theorem Edit.params (h : Edit cs ds) : leftOf (paramsOf cs) = leftOf (paramsOf ds) := by
  cases h with
  | @param path xs x ys fragment hpath hparams hfragment hx =>
    have hrest : ∀ y ∈ xs ++ ys, '&' ∉ y ∧ '#' ∉ y :=
      fun y hy => hparams y (mem_of_mem_rest hy)
    rw [paramsOf_textOf hpath.1 (hash_not_mem_textOf hpath.2 fun y hy => (hparams y hy).2)
        (fun y hy => (hparams y hy).1) hfragment,
      paramsOf_textOf hpath.1 (hash_not_mem_textOf hpath.2 fun y hy => (hrest y hy).2)
        (fun y hy => (hrest y hy).1) hfragment]
    have hleft : leftOf (xs ++ x :: ys) = leftOf (xs ++ ys) := by
      rw [← List.singleton_append, leftOf_append, leftOf_append, leftOf_append,
        leftOf_protocolParam hx, List.nil_append]
    rw [if_neg (by simp), hleft]
    split
    · next hnil => rw [hnil]; rfl
    · rfl
  | trailing hc =>
    unfold paramsOf
    rcases frontOf_concat hc ds with ⟨hfront, hfront', -, -⟩ | ⟨hfront, -⟩
    · rw [hfront, hfront']
      exact (query_concat hc ds).2
    · rw [hfront]

theorem Edit.fragment (h : Edit cs ds) : dropEnd (fragmentOf cs) = dropEnd (fragmentOf ds) := by
  cases h with
  | @param path xs x ys fragment hpath hparams hfragment hx =>
    rw [fragmentOf_append (hash_not_mem_textOf hpath.2 fun y hy => (hparams y hy).2),
      fragmentOf_append (hash_not_mem_textOf hpath.2 fun y hy =>
        (hparams y (mem_of_mem_rest hy)).2)]
  | trailing hc =>
    rcases frontOf_concat hc ds with ⟨-, -, hnil, hnil'⟩ | ⟨-, hfragment⟩
    · rw [hnil, hnil']
    · rw [hfragment, dropEnd_concat hc]

variable {u v : String}

theorem Alike.path (h : Alike u v) :
    dropEnd (pathOf (u.toList.map plus)) = dropEnd (pathOf (v.toList.map plus)) :=
  eq_of_edits (f := fun cs => dropEnd (pathOf cs)) Edit.path h

theorem Alike.params (h : Alike u v) :
    leftOf (paramsOf (u.toList.map plus)) = leftOf (paramsOf (v.toList.map plus)) :=
  eq_of_edits (f := fun cs => leftOf (paramsOf cs)) Edit.params h

theorem Alike.fragment (h : Alike u v) :
    dropEnd (fragmentOf (u.toList.map plus)) = dropEnd (fragmentOf (v.toList.map plus)) :=
  eq_of_edits (f := fun cs => dropEnd (fragmentOf cs)) Edit.fragment h

end BkPlatform.Cas
