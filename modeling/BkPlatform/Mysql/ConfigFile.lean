import BkPlatform.Lib.LinePattern
import BkPlatform.Lib.Sections
import BkPlatform.Mysql.Hosts

/-!
# Deleting a node from `config.ini`

`deleteNodeFromFile` goes through the lines with an index.  At a line that mentions the host
it moves the index back to the header of the section, looks for the next header, deletes what
lies between the two and steps on, over the line that has slid into place.  What it writes
are the sections that do not mention the host.

## Main definitions

* `isHeader`, `readlines` — the lines of the file.
* `back`, `ahead`, `deleteLoop`, `deleteNodeFromFile` — the loop.

## Main results

* `deleteLoop_eq_unstruck` — the loop, from every place on.
* `deleteNodeFromFile_filters` — **what is written are the sections without the host.**
-/

namespace BkPlatform.Mysql

open LinePattern Sections

/-! ### The loop -/

/-- `.` of an expression. -/
def notNewline (c : Char) : Bool := c != '\n'

/-- `re.match("\[.*\]", line) != None`. -/
def isHeader (line : List Char) : Bool :=
  (capture [.one fun c => c == '[', .run 0 notNewline, .one fun c => c == ']'] line).isSome

/-- `fp.readlines()`: a line ends behind its newline. -/
def readlines (text : List Char) : List (List Char) := text.splitBy fun c _ => notNewline c

/-- `while i > 0 and re.match("\[.*\]", lines[i]) == None: i -= 1`. -/
def back (lines : List (List Char)) : ℕ → ℕ
  | 0 => 0
  | i + 1 => if lines[i + 1]?.any isHeader then i + 1 else back lines i

/-- `while j < len(lines) and re.match("\[.*\]", lines[j]) == None: j += 1`. -/
def ahead (lines : List (List Char)) (j : ℕ) : ℕ :=
  if h : j < lines.length then
    if isHeader lines[j] then j else ahead lines (j + 1)
  else j
termination_by lines.length - j

theorem le_ahead (lines : List (List Char)) (j : ℕ) : j ≤ ahead lines j := by
  fun_induction ahead lines j with
  | case1 j h hheader => exact Nat.le_refl _
  | case2 j h hheader ih => exact Nat.le_of_succ_le ih
  | case3 j h => exact Nat.le_refl _

/-- The loop of `deleteNodeFromFile`; `isNode` is `re.match(".*"+hostname, line) != None`. -/
def deleteLoop (isNode : List Char → Bool) (lines : List (List Char)) (i : ℕ) :
    List (List Char) :=
  if h : i < lines.length then
    if isNode lines[i] then
      let start := back lines i
      let j := ahead lines i
      deleteLoop isNode (lines.take start ++ lines.drop j) (start + 1)
    else deleteLoop isNode lines (i + 1)
  else lines
termination_by lines.length - i
decreasing_by
  · have hj := le_ahead lines i
    simp only [List.length_append, List.length_take, List.length_drop]
    omega
  · omega

/-- `deleteNodeFromFile`: what is written for the text that is read. -/
def deleteNodeFromFile (isNode : List Char → Bool) (text : List Char) : List Char :=
  (deleteLoop isNode (readlines text) 0).flatten

/-! ### Back to the header, ahead to the next one -/

section Loop

variable {isNode : List Char → Bool} {done seen cur rest : List (List Char)} {line : List Char}

/-- At a header neither index moves. -/
theorem back_of_isHeader {lines : List (List Char)} {i : ℕ} (hi : i < lines.length)
    (h : isHeader lines[i] = true) : back lines i = i := by
  cases i with
  | zero => rfl
  | succ i => rw [back, List.getElem?_eq_getElem hi, Option.any_some, if_pos h]

theorem ahead_of_isHeader {lines : List (List Char)} {i : ℕ} (hi : i < lines.length)
    (h : isHeader lines[i] = true) : ahead lines i = i := by
  rw [ahead, dif_pos hi, if_pos h]

/-- The way back ends at the header of the section, or at the first line of all. -/
theorem back_append (hsection : IsSection isHeader (seen ++ [line]))
    (hhead : done = [] ∨ ∃ a ∈ (seen ++ [line]).head?, isHeader a = true)
    (rest : List (List Char)) :
    back (done ++ seen ++ line :: rest) (done.length + seen.length) = done.length := by
  induction seen using List.reverseRecOn generalizing line rest with
  | nil =>
    rcases hhead with rfl | ⟨a, ha, hheader⟩
    · rfl
    · obtain rfl : line = a := by simpa using ha
      cases done with
      | nil => rfl
      | cons b done => simp [back, hheader]
  | append_singleton seen last ih =>
    -- the line the index stands at is no header: it has one in front of it
    have hline : isHeader line = false := hsection line (by cases seen <;> simp)
    have hprevious : IsSection isHeader (seen ++ [last]) := by
      intro a ha
      refine hsection a ?_
      rw [List.tail_append_of_ne_nil (by simp)]
      exact List.mem_append_left _ ha
    have hhead' : done = [] ∨ ∃ a ∈ (seen ++ [last]).head?, isHeader a = true := by
      rcases hhead with hnil | ⟨a, ha, hheader⟩
      · exact Or.inl hnil
      · refine Or.inr ⟨a, ?_, hheader⟩
        cases seen <;> simpa using ha
    have hback := ih hprevious hhead' (line :: rest)
    have hindex : done.length + (seen ++ [last]).length = done.length + seen.length + 1 := by
      rw [List.length_append, List.length_singleton, Nat.add_assoc]
    have hat : (done ++ (seen ++ [last]) ++ line :: rest)[done.length + seen.length + 1]? =
        some line := by
      rw [← hindex, ← List.length_append, List.getElem?_append_right (Nat.le_refl _), Nat.sub_self]
      rfl
    rw [hindex, back, hat, Option.any_some, hline, if_neg Bool.false_ne_true]
    rw [← List.append_assoc, List.append_assoc _ [last]]
    exact hback

/-- The way ahead ends at the next header, or behind the last line. -/
theorem ahead_append (done rest : List (List Char)) :
    ahead (done ++ rest) done.length =
      done.length + (rest.takeWhile fun line => !isHeader line).length := by
  induction rest generalizing done with
  | nil => rw [ahead]; simp
  | cons line rest ih =>
    have hi : done.length < (done ++ line :: rest).length := by simp
    have hline : (done ++ line :: rest)[done.length] = line := List.getElem_of_append rfl rfl
    rw [ahead, dif_pos hi, hline]
    cases h : isHeader line
    · have hnext := ih (done ++ [line])
      rw [List.append_assoc, List.length_append, List.length_singleton] at hnext
      rw [if_neg Bool.false_ne_true, List.takeWhile_cons_of_pos (by simp [h]), List.length_cons]
      exact hnext.trans (by omega)
    · simp [h]

/-- **What the loop makes of the lines from the index on.**  The lines in front of the section
it is in are settled, and nothing in the section has mentioned the host so far. -/
theorem deleteLoop_append (hsection : IsSection isHeader cur)
    (hhead : done = [] ∨ ∃ a ∈ cur.head?, isHeader a = true)
    (hcur : struck isHeader isNode cur = false) (rest : List (List Char)) :
    deleteLoop isNode (done ++ cur ++ rest) (done.length + cur.length) =
      done ++ unstruck isHeader isNode (cur ++ rest) := by
  induction hn : rest.length using Nat.strong_induction_on generalizing done cur rest with
  | _ n ih =>
    have hkept : unstruck isHeader isNode cur = cur := by
      rw [unstruck_of_isSection hsection, hcur, if_neg Bool.false_ne_true]
    cases rest with
    | nil =>
      rw [deleteLoop, dif_neg (by simp), List.append_nil, List.append_nil, hkept]
    | cons line rest =>
      have hi : done.length + cur.length < (done ++ cur ++ line :: rest).length := by simp
      have hline : (done ++ cur ++ line :: rest)[done.length + cur.length] = line :=
        List.getElem_of_append rfl List.length_append
      have hshorter : rest.length < n := by
        rw [← hn, List.length_cons]
        exact Nat.lt_succ_self _
      rw [deleteLoop, dif_pos hi, hline]
      cases hheader : isHeader line with
      | true =>
        -- the section is over, and a header is passed whether or not it mentions the host
        have hpass : deleteLoop isNode (done ++ cur ++ line :: rest)
            (done.length + cur.length + 1) =
            done ++ unstruck isHeader isNode (cur ++ line :: rest) := by
          have h := @ih rest.length hshorter (done ++ cur) [line] (fun a ha => absurd ha (by simp))
            (Or.inr ⟨line, rfl, hheader⟩) (by simp [struck, hheader]) rest rfl
          rw [unstruck_append (by simpa using hheader), hkept, ← List.append_assoc]
          simpa using h
        rw [back_of_isHeader hi (by rw [hline, hheader]),
          ahead_of_isHeader hi (by rw [hline, hheader])]
        simp only [List.take_append_drop, hpass, ite_self]
      | false =>
        have hbegins : ∀ more,
            done = [] ∨ ∃ a ∈ (cur ++ line :: more).head?, isHeader a = true := by
          intro more
          rcases hhead with hnil | ⟨a, ha, h⟩
          · exact Or.inl hnil
          · exact Or.inr ⟨a, List.mem_head?_append_of_mem_head? ha, h⟩
        have hextended : IsSection isHeader (cur ++ [line]) :=
          hsection.append fun a ha => by rwa [List.mem_singleton.mp ha]
        cases hnode : isNode line with
        | false =>
          have h := @ih rest.length hshorter done (cur ++ [line]) hextended (hbegins [])
            (by rw [struck_append, hcur]; simp [struck, hnode]) rest rfl
          simpa [Nat.add_assoc] using h
        | true =>
          -- the whole section goes, with what is left of it up to the next header
          obtain ⟨body, next, hrest, hbody, hnext⟩ : ∃ body next, rest = body ++ next ∧
              rest.takeWhile (fun line => !isHeader line) = body ∧
              ∀ a ∈ next.head?, isHeader a = true := by
            refine ⟨_, rest.dropWhile fun line => !isHeader line,
              List.takeWhile_append_dropWhile.symm, rfl, fun a ha => ?_⟩
            have hstops := List.head?_dropWhile_not (fun line => !isHeader line) rest
            rw [Option.mem_def.mp ha] at hstops
            simpa using hstops
          have hj : ahead (done ++ cur ++ line :: rest) (done.length + cur.length) =
              (done ++ cur ++ line :: body).length := by
            have h := ahead_append (done ++ cur) (line :: rest)
            rw [List.takeWhile_cons_of_pos (by simp [hheader]), hbody] at h
            simpa [Nat.add_assoc] using h
          have hgone : unstruck isHeader isNode (cur ++ line :: rest) =
              unstruck isHeader isNode next := by
            have hwhole : IsSection isHeader (cur ++ line :: body) := by
              refine hsection.append fun a ha => ?_
              rcases List.mem_cons.mp ha with rfl | ha
              · exact hheader
              · rw [← hbody] at ha
                simpa using List.all_eq_true.mp List.all_takeWhile a ha
            have hstruck : struck isHeader isNode (cur ++ line :: body) = true := by
              simp [struck, hheader, hnode]
            have hsplit : cur ++ line :: rest = (cur ++ line :: body) ++ next := by simp [hrest]
            rw [hsplit, unstruck_append hnext, unstruck_of_isSection hwhole, if_pos hstruck,
              List.nil_append]
          have hdrop : (done ++ cur ++ line :: rest).drop (done ++ cur ++ line :: body).length =
              next := by
            rw [hrest, ← List.cons_append, ← List.append_assoc, List.drop_left]
          have htake : (done ++ cur ++ line :: rest).take done.length = done := by
            rw [List.append_assoc, List.take_left]
          rw [if_pos rfl, back_append hextended (hbegins []), hj]
          show deleteLoop isNode (List.take _ _ ++ List.drop _ _) _ = _
          rw [htake, hdrop, hgone]
          cases next with
          | nil => rw [deleteLoop, dif_neg (by simp), unstruck_nil]
          | cons header next =>
            have hheader' : isHeader header = true := hnext header rfl
            have h := @ih next.length (by simp [hrest] at hshorter; omega) done [header]
              (fun a ha => absurd ha (by simp)) (Or.inr ⟨header, rfl, hheader'⟩)
              (by simp [struck, hheader']) next rfl
            simpa using h

end Loop

/-- The loop leaves the sections without the host. -/
theorem deleteLoop_eq_unstruck (isNode : List Char → Bool) (lines : List (List Char)) :
    deleteLoop isNode lines 0 = unstruck isHeader isNode lines :=
  @deleteLoop_append isNode [] [] (fun a ha => absurd ha (by simp)) (Or.inl rfl) rfl lines

/-- **The loop is a filter of the sections**: for every sequence of lines and every pattern,
the loop ends, and what is written are the lines without the sections, and without the lines
in front of the first header, that have a line besides their header that matches. -/
theorem deleteNodeFromFile_filters (isNode : List Char → Bool) :
    (∀ lines : List (List Char), ∃ blocks : List (List (List Char)),
      blocks.flatten = lines ∧
      (∀ block ∈ blocks, ∀ line ∈ block.tail, isHeader line = false) ∧
      (∀ block ∈ blocks.tail, ∃ line ∈ block.head?, isHeader line = true) ∧
      deleteLoop isNode lines 0 =
        (blocks.filter fun block =>
          !block.any fun line => !isHeader line && isNode line).flatten) ∧
    ∀ text : List Char, deleteNodeFromFile isNode text =
      (unstruck isHeader isNode (readlines text)).flatten := by
  constructor
  · intro lines
    exact ⟨sections isHeader lines, flatten_sections isHeader lines,
      fun block hblock => isSection_of_mem hblock, fun block hblock => header_of_mem_tail hblock,
      deleteLoop_eq_unstruck isNode lines⟩
  · intro text
    rw [deleteNodeFromFile, deleteLoop_eq_unstruck]

end BkPlatform.Mysql
