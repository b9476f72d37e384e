import BkPlatform.Lib.Pieces
import Mathlib.Data.List.TakeDrop

/-!
# Absolute paths

A path is a list of names below the root.  It is read piece by piece: an empty piece and `.`
stay where they are, `..` goes up, and every other piece goes down.  What is read from some
place on goes up a number of levels first, as far as there are any, and ends some names below.

The slashes in front of an absolute path are kept as they are written.

## Main definitions

* `IsName`, `Dir` — a path, all of whose pieces are names.
* `follow`, `walk` — pieces read from some place on, and what they come to by themselves.
* `expand` — the path of a text that begins with a slash.

## Main results

* `follow_eq` — from every place on the same pieces go up and down alike.
* `expand_text_append` — a text that goes on behind the path of a directory is read from the
  directory above on.
* `text_prefix_iff`, `text_slash_prefix_iff` — when a path begins with another one, and when
  it lies below it.
-/

namespace Directory

/-- A name of an entry. -/
structure IsName (name : List Char) : Prop where
  ne_nil : name ≠ []
  ne_dot : name ≠ ['.']
  ne_dots : name ≠ ['.', '.']
  no_slash : '/' ∉ name
  no_null : '\x00' ∉ name

/-- How a path is written, with some slashes more than one in front. -/
def text (extra : ℕ) (names : List (List Char)) : List Char :=
  List.replicate extra '/' ++ '/' :: ['/'].intercalate names

/-- A path. -/
structure Dir where
  extra : ℕ
  names : List (List Char)
  isName : ∀ name ∈ names, IsName name

def Dir.text (d : Dir) : List Char := Directory.text d.extra d.names

/-! ### Reading pieces -/

/-- One piece. -/
def push (names : List (List Char)) (piece : List Char) : List (List Char) :=
  if piece = [] ∨ piece = ['.'] then names
  else if piece = ['.', '.'] then names.dropLast
  else names ++ [piece]

/-- Pieces, one after the other. -/
def follow (names pieces : List (List Char)) : List (List Char) := pieces.foldl push names

/-- What pieces come to: so many levels up, and then down. -/
structure Walk where
  ups : ℕ := 0
  downs : List (List Char) := []
  deriving DecidableEq, Repr

def Walk.step (w : Walk) (piece : List Char) : Walk :=
  if piece = [] ∨ piece = ['.'] then w
  else if piece = ['.', '.'] then
    if w.downs = [] then { w with ups := w.ups + 1 } else { w with downs := w.downs.dropLast }
  else { w with downs := w.downs ++ [piece] }

def walk (pieces : List (List Char)) : Walk := pieces.foldl Walk.step {}

section Follow

variable {names pieces : List (List Char)} {piece : List Char}

theorem push_of_isName (h : IsName piece) : push names piece = names ++ [piece] := by
  rw [push, if_neg (not_or.mpr ⟨h.ne_nil, h.ne_dot⟩), if_neg h.ne_dots]

theorem follow_append (names as bs : List (List Char)) :
    follow names (as ++ bs) = follow (follow names as) bs := List.foldl_append

/-- Names go down. -/
theorem follow_of_isName (h : ∀ piece ∈ pieces, IsName piece) :
    follow names pieces = names ++ pieces := by
  induction pieces generalizing names with
  | nil => rw [follow, List.foldl_nil, List.append_nil]
  | cons piece pieces ih =>
    rw [List.forall_mem_cons] at h
    rw [follow, List.foldl_cons, push_of_isName h.1, ← follow, ih h.2, List.append_assoc,
      List.singleton_append]

/-- Pieces without slashes and null characters lead to names. -/
theorem isName_follow (hnames : ∀ name ∈ names, IsName name)
    (hpieces : ∀ piece ∈ pieces, '/' ∉ piece ∧ '\x00' ∉ piece) :
    ∀ name ∈ follow names pieces, IsName name := by
  induction pieces generalizing names with
  | nil => exact hnames
  | cons piece pieces ih =>
    rw [List.forall_mem_cons] at hpieces
    refine ih ?_ hpieces.2
    intro name hname
    unfold push at hname
    split at hname
    · exact hnames name hname
    · next hne =>
      obtain ⟨hnil, hdot⟩ := not_or.mp hne
      split at hname
      · exact hnames name (List.mem_of_mem_dropLast hname)
      · next hdots =>
        rcases List.mem_append.mp hname with hold | hnew
        · exact hnames name hold
        · obtain rfl := List.mem_singleton.mp hnew
          exact ⟨hnil, hdot, hdots, hpieces.1.1, hpieces.1.2⟩

/-- One piece goes up or down from every place alike. -/
theorem push_eq (names : List (List Char)) (w : Walk) (piece : List Char) :
    push (names.take (names.length - w.ups) ++ w.downs) piece =
      names.take (names.length - (w.step piece).ups) ++ (w.step piece).downs := by
  unfold push Walk.step
  split
  · rfl
  · split
    · split
      · next hdowns =>
        have hlevels : min ((names.take (names.length - w.ups)).length - 1)
            (names.length - w.ups) = names.length - (w.ups + 1) := by
          rw [List.length_take]
          omega
        rw [hdowns, List.append_nil, List.append_nil, List.dropLast_eq_take, List.take_take,
          hlevels]
      · next hdowns => rw [List.dropLast_append_of_ne_nil hdowns]
    · rw [List.append_assoc]

/-- **From every place on the pieces go up and down alike.** -/
theorem follow_eq (names pieces : List (List Char)) :
    follow names pieces =
      names.take (names.length - (walk pieces).ups) ++ (walk pieces).downs := by
  induction pieces using List.reverseRecOn with
  | nil => rw [walk, List.foldl_nil, Nat.sub_zero, List.take_length, List.append_nil]; rfl
  | append_singleton pieces piece ih =>
    have hwalk : walk (pieces ++ [piece]) = (walk pieces).step piece := by
      rw [walk, List.foldl_append, ← walk, List.foldl_cons, List.foldl_nil]
    rw [follow_append, ih, hwalk, ← push_eq]
    rfl

end Follow

/-! ### Texts -/

/-- The path of a text that begins with a slash. -/
def expand (cs : List Char) (h : '\x00' ∉ cs) : Dir where
  extra := (cs.takeWhile fun c => c == '/').length - 1
  names := follow [] (cs.splitOn '/')
  isName := isName_follow (fun _ h => absurd h List.not_mem_nil) fun _ hpiece =>
    ⟨Pieces.not_mem_of_mem_splitOn hpiece, fun hc => h (Pieces.subset_of_mem_splitOn hpiece hc)⟩

/-- The path of a text read from a directory on. -/
def Dir.enter (d : Dir) (cs : List Char) (h : '\x00' ∉ cs) : Dir where
  extra := d.extra
  names := follow d.names (cs.splitOn '/')
  isName := isName_follow d.isName fun _ hpiece =>
    ⟨Pieces.not_mem_of_mem_splitOn hpiece, fun hc => h (Pieces.subset_of_mem_splitOn hpiece hc)⟩

/-- Slashes in front lead nowhere. -/
theorem follow_slashes (names : List (List Char)) (n : ℕ) (cs : List Char) :
    follow names ((List.replicate n '/' ++ cs).splitOn '/') = follow names (cs.splitOn '/') := by
  induction n with
  | zero => rw [List.replicate_zero, List.nil_append]
  | succ n ih =>
    have hsplit := List.splitOn_append_cons_self_of_not_mem (@List.not_mem_nil _ '/')
      (List.replicate n '/' ++ cs)
    rw [List.nil_append] at hsplit
    rw [List.replicate_succ, List.cons_append, hsplit, follow, List.foldl_cons, push,
      if_pos (Or.inl rfl), ← follow, ih]

/-- A path is not empty. -/
theorem text_eq (extra : ℕ) (names : List (List Char)) :
    text extra names = List.replicate (extra + 1) '/' ++ ['/'].intercalate names := by
  rw [text, List.replicate_succ', List.append_assoc, List.singleton_append]

/-- Behind the slashes there is the first name. -/
theorem intercalate_eq_cons {names : List (List Char)} (hnames : ∀ name ∈ names, IsName name)
    (hne : names ≠ []) : ∃ c cs, ['/'].intercalate names = c :: cs ∧ c ≠ '/' := by
  obtain ⟨name, names, rfl⟩ := List.exists_cons_of_ne_nil hne
  have hname := hnames name List.mem_cons_self
  obtain ⟨c, cs, rfl⟩ := List.exists_cons_of_ne_nil hname.ne_nil
  have hc : c ≠ '/' := fun h => hname.no_slash (h ▸ List.mem_cons_self)
  cases names with
  | nil => exact ⟨c, cs, List.intercalate_singleton, hc⟩
  | cons name' names => exact ⟨c, _, List.intercalate_cons_cons, hc⟩

theorem takeWhile_slashes (n : ℕ) (cs : List Char) :
    (List.replicate n '/' ++ cs).takeWhile (fun c => c == '/') =
      List.replicate n '/' ++ cs.takeWhile fun c => c == '/' :=
  List.takeWhile_append_of_pos fun _ hc => beq_iff_eq.mpr (List.eq_of_mem_replicate hc)

section ExpandText

variable {d : Dir} {rest : List Char} {h : '\x00' ∉ d.text ++ rest}

/-- **A text that goes on behind the path of a directory** is read from the directory above
on: the last name goes on. -/
theorem expand_text_append {init : List (List Char)} {last : List Char}
    (hnames : d.names = init ++ [last]) :
    (expand (d.text ++ rest) h).extra = d.extra ∧
      (expand (d.text ++ rest) h).names = follow init ((last ++ rest).splitOn '/') := by
  have hinit : ∀ name ∈ init, IsName name := fun name hname =>
    d.isName name (hnames ▸ List.mem_append_left _ hname)
  have htext : d.text ++ rest = List.replicate (d.extra + 1) '/' ++
      (['/'].intercalate (init ++ [last]) ++ rest) := by
    rw [Dir.text, text_eq, hnames, List.append_assoc]
  constructor
  · obtain ⟨c, cs, hcs, hc⟩ := intercalate_eq_cons d.isName (hnames ▸ by simp)
    rw [hnames] at hcs
    have hnone : (c :: (cs ++ rest)).takeWhile (fun c => c == '/') = [] :=
      List.takeWhile_cons_of_neg fun heq => hc (beq_iff_eq.mp heq)
    show ((d.text ++ rest).takeWhile fun c => c == '/').length - 1 = d.extra
    rw [htext, takeWhile_slashes, hcs, List.cons_append, hnone, List.append_nil,
      List.length_replicate]
    rfl
  · show follow [] ((d.text ++ rest).splitOn '/') = _
    have hslash : ∀ name ∈ init, '/' ∉ name := fun name hname => (hinit name hname).no_slash
    rw [htext, follow_slashes, Pieces.splitOn_intercalate_append hslash,
      follow_append, follow_of_isName hinit, List.nil_append]

/-- Behind the root there may be more slashes. -/
theorem expand_root_append (hnames : d.names = []) :
    (expand (d.text ++ rest) h).extra =
        d.extra + (rest.takeWhile fun c => c == '/').length ∧
      (expand (d.text ++ rest) h).names = follow [] (rest.splitOn '/') := by
  have htext : d.text ++ rest = List.replicate (d.extra + 1) '/' ++ rest := by
    rw [Dir.text, text_eq, hnames, List.intercalate_nil, List.append_nil]
  constructor
  · show ((d.text ++ rest).takeWhile fun c => c == '/').length - 1 = _
    rw [htext, takeWhile_slashes, List.length_append, List.length_replicate]
    omega
  · show follow [] ((d.text ++ rest).splitOn '/') = _
    rw [htext]
    exact follow_slashes [] (d.extra + 1) rest

end ExpandText

/-! ### Below a directory -/

section Below

variable {extra : ℕ} {init names : List (List Char)} {last : List Char}

/-- A path begins like that of a directory exactly if it lies below the directory above, in an
entry whose name begins with that of the directory. -/
theorem text_prefix_iff (hinit : ∀ name ∈ init ++ [last], IsName name)
    (hnames : ∀ name ∈ names, IsName name) :
    text extra (init ++ [last]) <+: text extra names ↔
      ∃ x more, names = init ++ (last ++ x) :: more := by
  rw [text_eq, text_eq, List.prefix_append_right_inj]
  cases names with
  | nil =>
    refine iff_of_false (fun h => ?_) (by simp)
    obtain ⟨c, cs, hcs, -⟩ := intercalate_eq_cons hinit (by simp)
    rw [hcs, List.intercalate_nil] at h
    cases List.prefix_nil.mp h
  | cons name names =>
    exact Pieces.intercalate_prefix_iff
      (fun name hname => (hinit name (List.mem_append_left _ hname)).no_slash)
      (hinit last (by simp)).no_slash (fun name hname => (hnames name hname).no_slash)
      (List.cons_ne_nil _ _)

/-- It lies below the directory itself exactly if a slash comes next. -/
theorem text_slash_prefix_iff (hinit : ∀ name ∈ init ++ [last], IsName name)
    (hnames : ∀ name ∈ names, IsName name) :
    text extra (init ++ [last]) ++ ['/'] <+: text extra names ↔
      ∃ name more, names = init ++ last :: name :: more := by
  have hne : init ++ [last] ≠ [] := by simp
  rw [text_eq, text_eq, List.append_assoc, ← Pieces.intercalate_append_nil hne,
    List.prefix_append_right_inj]
  cases names with
  | nil =>
    refine iff_of_false (fun h => ?_) (by simp)
    rw [Pieces.intercalate_append_nil hne, List.intercalate_nil] at h
    exact absurd (List.prefix_nil.mp h) (by simp)
  | cons name names =>
    rw [Pieces.intercalate_prefix_iff (fun name hname => (hinit name hname).no_slash)
      List.not_mem_nil (fun name hname => (hnames name hname).no_slash) (List.cons_ne_nil _ _)]
    simp

theorem prefix_of_slashes {m n : ℕ} (h : m ≤ n) (cs : List Char) :
    List.replicate m '/' <+: List.replicate n '/' ++ cs := by
  obtain ⟨k, rfl⟩ := Nat.exists_eq_add_of_le h
  rw [List.replicate_add, List.append_assoc]
  exact List.prefix_append _ _

/-- Every path begins like the root. -/
theorem prefix_of_root (n : ℕ) : text extra [] <+: text (extra + n) names := by
  rw [text_eq, text_eq, List.intercalate_nil, List.append_nil]
  exact prefix_of_slashes (by omega) _

/-- A slash comes next exactly if there is one more in front of the path. -/
theorem text_root_slash_prefix_iff {n : ℕ} (hnames : ∀ name ∈ names, IsName name) :
    text extra [] ++ ['/'] <+: text (extra + n) names ↔ n ≠ 0 := by
  have hroot : text extra [] ++ ['/'] = List.replicate (extra + 2) '/' := by
    rw [text_eq, List.intercalate_nil, List.append_nil, ← List.replicate_succ']
  cases n with
  | succ n =>
    refine iff_of_true ?_ (Nat.succ_ne_zero n)
    rw [hroot, text_eq]
    exact prefix_of_slashes (by omega) _
  | zero =>
    refine iff_of_false (fun h => ?_) fun h => h rfl
    rw [text_eq, text_eq, List.intercalate_nil, List.append_nil, Nat.add_zero,
      List.prefix_append_right_inj] at h
    by_cases hne : names = []
    · rw [hne, List.intercalate_nil] at h
      cases List.prefix_nil.mp h
    · obtain ⟨c, cs, hcs, hc⟩ := intercalate_eq_cons hnames hne
      obtain ⟨t, ht⟩ := h
      rw [hcs] at ht
      exact hc (List.cons.inj ht).1.symm

end Below

/-- There is no null character in a path. -/
theorem Dir.null_not_mem (d : Dir) : '\x00' ∉ d.text := by
  intro h
  rw [Dir.text, text_eq] at h
  rcases List.mem_append.mp h with h | h
  · exact absurd (List.eq_of_mem_replicate h) (by decide)
  · rcases Pieces.mem_intercalate h with h | ⟨name, hname, h⟩
    · exact absurd h (by decide)
    · exact (d.isName name hname).no_null h

end Directory
