import Mathlib.Data.List.Induction

/-!
# Parameter lists as one word

A list of names and values written as one word: each pair behind a separator `amp`, and
`eq` between its name and its value.  Nothing is escaped, so that a value with both symbols
can be read as several pairs.  If the values have no `amp`, or no `eq`, the word can be
read from its end in one way.

## Main definitions

* `Parameters.word` — the word of a list.
* `Parameters.Named` — the names contain neither symbol.

## Main results

* `Parameters.word_injective` — **the word determines the list**, if the values lack one
  of the symbols.
* `Parameters.word_merge` — two pairs can be written as one.
-/

namespace Parameters

variable {α : Type} {amp eq : α}

/-- The pairs one after the other. -/
def word (amp eq : α) (ps : List (List α × List α)) : List α :=
  ps.flatMap fun p => amp :: (p.1 ++ eq :: p.2)

/-- The names contain neither symbol. -/
structure Named (amp eq : α) (ps : List (List α × List α)) : Prop where
  amp : ∀ p ∈ ps, amp ∉ p.1
  eq : ∀ p ∈ ps, eq ∉ p.1

/-- No value contains the one symbol, or no value contains the other. -/
def Lacking (amp eq : α) (ps : List (List α × List α)) : Prop :=
  (∀ p ∈ ps, amp ∉ p.2) ∨ ∀ p ∈ ps, eq ∉ p.2

theorem word_cons (p : List α × List α) (ps : List (List α × List α)) :
    word amp eq (p :: ps) = amp :: (p.1 ++ eq :: p.2) ++ word amp eq ps := List.flatMap_cons

theorem word_concat (ps : List (List α × List α)) (p : List α × List α) :
    word amp eq (ps ++ [p]) = word amp eq ps ++ amp :: (p.1 ++ eq :: p.2) := by
  simp [word]

/-- Two pairs, and the one whose value has the second in it. -/
theorem word_merge (amp eq : α) (k v k' v' : List α) :
    word amp eq [(k, v ++ amp :: (k' ++ eq :: v'))] = word amp eq [(k, v), (k', v')] := by
  simp [word]

/-- The first occurrence of a symbol splits a list in one way. -/
theorem split_first {x : α} {a a' b b' : List α} (ha : x ∉ a) (ha' : x ∉ a')
    (h : a ++ x :: b = a' ++ x :: b') : a = a' ∧ b = b' := by
  induction a generalizing a' with
  | nil =>
    cases a' with
    | nil => exact ⟨rfl, (List.cons.inj h).2⟩
    | cons y ys => exact absurd List.mem_cons_self ((List.cons.inj h).1 ▸ ha')
  | cons z zs ih =>
    cases a' with
    | nil => exact absurd List.mem_cons_self ((List.cons.inj h).1 ▸ ha)
    | cons y ys =>
      obtain ⟨rfl, hrest⟩ := List.cons.inj h
      obtain ⟨rfl, hb⟩ := ih (List.not_mem_of_not_mem_cons ha) (List.not_mem_of_not_mem_cons ha')
        hrest
      exact ⟨rfl, hb⟩

/-- So does the last. -/
theorem split_last {x : α} {a a' b b' : List α} (hb : x ∉ b) (hb' : x ∉ b')
    (h : a ++ x :: b = a' ++ x :: b') : a = a' ∧ b = b' := by
  have hreverse : b.reverse ++ x :: a.reverse = b'.reverse ++ x :: a'.reverse := by
    simpa using congrArg List.reverse h
  obtain ⟨h₁, h₂⟩ := split_first (by simpa using hb) (by simpa using hb') hreverse
  exact ⟨List.reverse_inj.mp h₂, List.reverse_inj.mp h₁⟩

/-- The last pair can be read in one way. -/
theorem last_pair (hne : amp ≠ eq) {w w' k k' v v' : List α} (hamp : amp ∉ k) (hamp' : amp ∉ k')
    (heq : eq ∉ k) (heq' : eq ∉ k') (hv : amp ∉ v ∧ amp ∉ v' ∨ eq ∉ v ∧ eq ∉ v')
    (h : w ++ amp :: (k ++ eq :: v) = w' ++ amp :: (k' ++ eq :: v')) :
    w = w' ∧ k = k' ∧ v = v' := by
  rcases hv with ⟨hv, hv'⟩ | ⟨hv, hv'⟩
  · -- behind the last separator stands the pair
    obtain ⟨hw, hpair⟩ := split_last (by simp [hamp, hv, hne]) (by simp [hamp', hv', hne]) h
    exact ⟨hw, split_first heq heq' hpair⟩
  · -- behind the last `eq` stands the value
    have hsplit : (w ++ amp :: k) ++ eq :: v = (w' ++ amp :: k') ++ eq :: v' := by
      simpa using h
    obtain ⟨hrest, hvalue⟩ := split_last hv hv' hsplit
    obtain ⟨hw, hk⟩ := split_last hamp hamp' hrest
    exact ⟨hw, hk, hvalue⟩

/-- **The word determines the list**, if no value has the separator, or none the symbol
between name and value. -/
theorem word_injective (hne : amp ≠ eq) {ps qs : List (List α × List α)}
    (hps : Named amp eq ps) (hqs : Named amp eq qs) (hlack : Lacking amp eq (ps ++ qs))
    (h : word amp eq ps = word amp eq qs) : ps = qs := by
  induction ps using List.reverseRecOn generalizing qs with
  | nil =>
    rcases List.eq_nil_or_concat qs with rfl | ⟨qs, q, rfl⟩
    · rfl
    · rw [List.concat_eq_append, word_concat] at h
      simp [word] at h
  | append_singleton ps p ih =>
    rcases List.eq_nil_or_concat qs with rfl | ⟨qs, q, rfl⟩
    · rw [word_concat] at h
      simp [word] at h
    · rw [List.concat_eq_append] at h hqs hlack ⊢
      rw [word_concat, word_concat] at h
      have hp : p ∈ ps ++ [p] := by simp
      have hq : q ∈ qs ++ [q] := by simp
      have hv : amp ∉ p.2 ∧ amp ∉ q.2 ∨ eq ∉ p.2 ∧ eq ∉ q.2 := by
        rcases hlack with hlack | hlack
        · exact Or.inl ⟨hlack p (by simp), hlack q (by simp)⟩
        · exact Or.inr ⟨hlack p (by simp), hlack q (by simp)⟩
      obtain ⟨hword, hname, hvalue⟩ := last_pair hne (hps.amp p hp) (hqs.amp q hq) (hps.eq p hp)
        (hqs.eq q hq) hv h
      have hfewer : ∀ r ∈ ps ++ qs, r ∈ (ps ++ [p]) ++ (qs ++ [q]) := by
        intro r hr
        rcases List.mem_append.mp hr with hr | hr
        · simp [hr]
        · simp [hr]
      have hrest := ih ⟨fun r hr => hps.amp r (by simp [hr]), fun r hr => hps.eq r (by simp [hr])⟩
        ⟨fun r hr => hqs.amp r (by simp [hr]), fun r hr => hqs.eq r (by simp [hr])⟩
        (hlack.imp (fun h r hr => h r (hfewer r hr)) (fun h r hr => h r (hfewer r hr))) hword
      rw [hrest, Prod.ext hname hvalue]

end Parameters
