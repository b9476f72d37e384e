import BkPlatform.Lib.Directory
import BkPlatform.Cas.Service

/-!
# Static files

`static!` puts what is left of the request path behind the public directory and expands the
whole.  A path that does not begin like the public directory is not served.  But a path that
begins so need not lie in it: the name of another entry of the directory above may be a longer
one, and so may be what becomes of the name itself if no slash comes behind it.

## Main definitions

* `FileSystem`, `expandPath` — `File.expand_path`.
* `stripUriPath` — the request path without `uri_path`.
* `static` — the file that is sent.
* `NextDoor` — what lies next to the public directory and begins like it.

## Main results

* `nextDoor_iff` — what passes the comparison, and does not lie below the directory.
* `confined_iff` — **exactly when no file from outside is sent.**
-/

namespace BkPlatform.Cas

open Directory

/-! ### Paths -/

/-- What the server asks the file system. -/
structure FileSystem where
  /-- The directory the server runs in. -/
  pwd : Dir
  /-- The home directory of a user; without a name, of the one who runs the server. -/
  home : List Char → Option Dir
  /-- `File.file?`. -/
  isFile : List Char → Bool

/-- `File.expand_path`; it raises if there is a null character, or no such user. -/
def expandPath (fs : FileSystem) (cs : List Char) : Option Dir :=
  if h : '\x00' ∈ cs then none
  else if cs.head? = some '/' then some (expand cs h)
  else if cs.head? = some '~' then
    (fs.home ((cs.drop 1).takeWhile fun c => c != '/')).map fun d =>
      d.enter (cs.dropWhile fun c => c != '/') fun hc => h ((List.dropWhile_sublist _).subset hc)
  else some (fs.pwd.enter cs h)

/-- `gsub` of the pattern made of `uri_path`: every match is taken out.  The pattern tells the
length of a match between what stands before a place and what comes there; `skip` characters of
a match are still to be taken out. -/
def stripUriPath (pattern : List Char → List Char → Option ℕ) :
    List Char → ℕ → List Char → List Char
  | _, _, [] => []
  | before, skip + 1, c :: cs => stripUriPath pattern (before ++ [c]) skip cs
  | before, 0, c :: cs =>
    match pattern before (c :: cs) with
    | some (n + 1) => stripUriPath pattern (before ++ [c]) n cs
    | _ => c :: stripUriPath pattern (before ++ [c]) 0 cs

section Static

-- `unescape` of Rack, which raises if there is an invalid escape
variable (fs : FileSystem) (unescape : List Char → Option (List Char))
  (pattern : List Char → List Char → Option ℕ)

/-- `static!`: the file that is sent. -/
def static (publicDir : Option (List Char)) (pathInfo : List Char) :
    Except Raised (Option (List Char)) :=
  match publicDir with
  | none => .ok none
  | some publicDir =>
    match expandPath fs publicDir, unescape (stripUriPath pattern [] 0 pathInfo) with
    | some dir, some rest =>
      match expandPath fs (dir.text ++ rest) with
      | some path =>
        if path.text.take dir.text.length ≠ dir.text then .ok none
        else if fs.isFile path.text then .ok (some path.text)
        else .ok none
      | none => .error .other
    | _, _ => .error .other

/-- **No file from outside is sent**: the path begins with the public directory and a slash. -/
def Confined (publicDir : Option (List Char)) (pathInfo : List Char) : Prop :=
  ∀ dir path, publicDir.bind (expandPath fs) = some dir →
    static fs unescape pattern publicDir pathInfo = .ok (some path) → dir.text ++ ['/'] <+: path

/-- What is read behind the public directory leads to a path outside of it that begins like
it. -/
inductive NextDoor (dir : Dir) (rest : List Char) : List Char → Prop
  /-- From the directory above on it goes up some levels, down again as far, and to an entry
  whose name begins with that of the public directory. -/
  | neighbour {init : List (List Char)} {last x : List Char} {more : List (List Char)} {w : Walk}
      (hnames : dir.names = init ++ [last]) (hwalk : walk ((last ++ rest).splitOn '/') = w)
      (hdowns : w.downs = init.drop (init.length - w.ups) ++ (last ++ x) :: more)
      (hx : x = [] → more = []) :
      NextDoor dir rest (text dir.extra (init ++ (last ++ x) :: more))
  /-- Behind the root there is no slash more. -/
  | root {w : Walk} (hnames : dir.names = []) (hwalk : walk (rest.splitOn '/') = w)
      (hrest : rest.head? ≠ some '/') : NextDoor dir rest (text dir.extra w.downs)

/-! ### What passes the comparison -/

section NextDoor

variable {dir path : Dir} {rest : List Char}

/-- Pieces that go up some levels and down again to a neighbour. -/
theorem follow_eq_of_walk {init pieces more : List (List Char)} {name : List Char}
    (hdowns : (walk pieces).downs =
      init.drop (init.length - (walk pieces).ups) ++ name :: more) :
    follow init pieces = init ++ name :: more := by
  rw [follow_eq, hdowns, ← List.append_assoc, List.take_append_drop]

/-- And the other way round. -/
theorem walk_eq_of_follow {init pieces more : List (List Char)} {name : List Char}
    (h : follow init pieces = init ++ name :: more) :
    (walk pieces).downs = init.drop (init.length - (walk pieces).ups) ++ name :: more := by
  rw [follow_eq] at h
  have hleft : init.take (init.length - (walk pieces).ups) ++ (walk pieces).downs =
      init.take (init.length - (walk pieces).ups) ++
        (init.drop (init.length - (walk pieces).ups) ++ name :: more) := by
    rw [h, ← List.append_assoc, List.take_append_drop]
  exact List.append_cancel_left hleft

/-- Of a directory that is not the root. -/
theorem nextDoor_iff_of_concat {init : List (List Char)} {last : List Char}
    (hnames : dir.names = init ++ [last]) (hextra : path.extra = dir.extra)
    (hpath : path.names = follow init ((last ++ rest).splitOn '/')) :
    (dir.text <+: path.text ∧ ¬ dir.text ++ ['/'] <+: path.text) ↔
      NextDoor dir rest path.text := by
  have hinit : ∀ name ∈ init ++ [last], IsName name := hnames ▸ dir.isName
  rw [Dir.text, hnames, Dir.text, hextra, text_prefix_iff hinit path.isName,
    text_slash_prefix_iff hinit path.isName]
  constructor
  · rintro ⟨⟨x, more, heq⟩, hnot⟩
    rw [heq]
    refine NextDoor.neighbour hnames rfl (walk_eq_of_follow (hpath.symm.trans heq)) ?_
    rintro rfl
    cases more with
    | nil => rfl
    | cons name more =>
      rw [List.append_nil] at heq
      exact absurd ⟨name, more, heq⟩ hnot
  · intro hnext
    generalize htext : text dir.extra path.names = t at hnext
    cases hnext with
    | root hroot => exact absurd (hnames.symm.trans hroot) (by simp)
    | @neighbour init' last' x more w hnames' hwalk hdowns hx =>
      obtain ⟨rfl, hlast⟩ := List.append_inj' (hnames.symm.trans hnames') rfl
      obtain rfl := List.head_eq_of_cons_eq hlast
      subst hwalk
      have heq := hpath.trans (follow_eq_of_walk hdowns)
      refine ⟨⟨x, more, heq⟩, ?_⟩
      rintro ⟨name, more', heq'⟩
      obtain ⟨hname, hmore⟩ := List.cons.inj (List.append_cancel_left (heq.symm.trans heq'))
      rw [hx (List.append_right_eq_self.mp hname)] at hmore
      cases hmore

/-- Of the root. -/
theorem nextDoor_iff_of_root (hnames : dir.names = [])
    (hextra : path.extra = dir.extra + (rest.takeWhile fun c => c == '/').length)
    (hpath : path.names = follow [] (rest.splitOn '/')) :
    (dir.text <+: path.text ∧ ¬ dir.text ++ ['/'] <+: path.text) ↔
      NextDoor dir rest path.text := by
  have hslashes : (rest.takeWhile fun c => c == '/').length = 0 ↔ rest.head? ≠ some '/' := by
    cases rest with
    | nil => simp
    | cons c rest =>
      rw [List.takeWhile_cons]
      split
      · next hc => simp [beq_iff_eq.mp hc]
      · next hc => simpa using hc
  rw [Dir.text, hnames, Dir.text, hextra, text_root_slash_prefix_iff path.isName,
    and_iff_right (prefix_of_root _), not_not, hslashes]
  have hdowns : path.names = (walk (rest.splitOn '/')).downs := by
    rw [hpath, follow_eq, List.take_nil, List.nil_append]
  constructor
  · intro hrest
    rw [hslashes.mpr hrest, hdowns]
    exact NextDoor.root hnames rfl hrest
  · intro hnext
    generalize htext : text _ path.names = t at hnext
    cases hnext with
    | neighbour hconcat => exact absurd (hnames.symm.trans hconcat) (by simp)
    | root _ _ hrest => exact hrest

/-- **What passes the comparison, and does not lie below the directory**, is what lies next to
it. -/
theorem nextDoor_iff {h : '\x00' ∉ dir.text ++ rest} :
    (dir.text <+: (expand (dir.text ++ rest) h).text ∧
        ¬ dir.text ++ ['/'] <+: (expand (dir.text ++ rest) h).text) ↔
      NextDoor dir rest (expand (dir.text ++ rest) h).text := by
  rcases List.eq_nil_or_concat dir.names with hnames | ⟨init, last, hnames⟩
  · obtain ⟨hextra, hpath⟩ := @expand_root_append dir rest h hnames
    exact nextDoor_iff_of_root hnames hextra hpath
  · rw [List.concat_eq_append] at hnames
    obtain ⟨hextra, hpath⟩ := @expand_text_append dir rest h init last hnames
    exact nextDoor_iff_of_concat hnames hextra hpath

/-- What lies next door is the path that is expanded. -/
theorem NextDoor.eq_text {t : List Char} (hnext : NextDoor dir rest t)
    (h : '\x00' ∉ dir.text ++ rest) : t = (expand (dir.text ++ rest) h).text := by
  cases hnext with
  | @neighbour init last x more w hnames hwalk hdowns hx =>
    obtain ⟨hextra, hpath⟩ := @expand_text_append dir rest h init last hnames
    subst hwalk
    rw [Dir.text, hextra, hpath, follow_eq_of_walk hdowns]
  | @root w hnames hwalk hrest =>
    obtain ⟨hextra, hpath⟩ := @expand_root_append dir rest h hnames
    have hslashes : (rest.takeWhile fun c => c == '/') = [] := by
      cases rest with
      | nil => rfl
      | cons c rest =>
        exact List.takeWhile_cons_of_neg fun heq => hrest (congrArg some (beq_iff_eq.mp heq))
    rw [Dir.text, hextra, hpath, hslashes, follow_eq, hwalk, List.take_nil, List.nil_append,
      List.length_nil, Nat.add_zero]

end NextDoor

/-! ### What is sent -/

section Sent

variable {fs unescape pattern}

/-- Behind a directory the text is expanded, unless it has a null character. -/
theorem expandPath_text_append (dir : Dir) (rest : List Char) (h : '\x00' ∉ dir.text ++ rest) :
    expandPath fs (dir.text ++ rest) = some (expand (dir.text ++ rest) h) := by
  have hhead : (dir.text ++ rest).head? = some '/' := by
    rw [Dir.text, text_eq, List.replicate_succ]
    rfl
  rw [expandPath, dif_neg h, if_pos hhead]

/-- **What is sent**: a file whose path begins like the public directory. -/
theorem static_eq_ok_iff {publicDir : Option (List Char)} {pathInfo t : List Char} :
    static fs unescape pattern publicDir pathInfo = .ok (some t) ↔
      ∃ dir rest, publicDir.bind (expandPath fs) = some dir ∧
        unescape (stripUriPath pattern [] 0 pathInfo) = some rest ∧
        ∃ h : '\x00' ∉ dir.text ++ rest, t = (expand (dir.text ++ rest) h).text ∧
          dir.text <+: t ∧ fs.isFile t = true := by
  cases publicDir with
  | none => exact iff_of_false (fun h => nomatch h) fun ⟨_, _, h, _⟩ => nomatch h
  | some publicDir =>
    rw [static, Option.bind_some]
    cases hdir : expandPath fs publicDir with
    | none => exact iff_of_false (fun h => nomatch h) fun ⟨_, _, h, _⟩ => nomatch h
    | some dir =>
      cases hrest : unescape (stripUriPath pattern [] 0 pathInfo) with
      | none => exact iff_of_false (fun h => nomatch h) fun ⟨_, _, _, h, _⟩ => nomatch h
      | some rest =>
        by_cases h : '\x00' ∈ dir.text ++ rest
        · have hnone : expandPath fs (dir.text ++ rest) = none := dif_pos h
          simp only [hnone]
          refine iff_of_false (fun h => nomatch h) ?_
          rintro ⟨dir', rest', hdir', hrest', hnot, -⟩
          obtain rfl := Option.some.inj hdir'
          obtain rfl := Option.some.inj hrest'
          exact hnot h
        · have hstart : (expand (dir.text ++ rest) h).text.take dir.text.length = dir.text ↔
              dir.text <+: (expand (dir.text ++ rest) h).text := by
            rw [List.prefix_iff_eq_take, eq_comm]
          simp only [expandPath_text_append dir rest h]
          constructor
          · intro hsent
            split at hsent
            · cases hsent
            · next hbegins =>
              split at hsent
              · next hfile =>
                obtain rfl := Option.some.inj (Except.ok.inj hsent)
                exact ⟨dir, rest, rfl, rfl, h, rfl, hstart.mp (not_not.mp hbegins), hfile⟩
              · cases hsent
          · rintro ⟨dir', rest', hdir', hrest', hnull, rfl, hbegins, hfile⟩
            obtain rfl := Option.some.inj hdir'
            obtain rfl := Option.some.inj hrest'
            rw [if_neg (not_not.mpr (hstart.mpr hbegins)), if_pos hfile]

/-- **Exactly when no file from outside is sent**: unless the request leads to a file next
door. -/
theorem confined_iff {publicDir : Option (List Char)} {pathInfo : List Char} :
    Confined fs unescape pattern publicDir pathInfo ↔
      ¬ ∃ dir rest t, publicDir.bind (expandPath fs) = some dir ∧
        unescape (stripUriPath pattern [] 0 pathInfo) = some rest ∧ '\x00' ∉ rest ∧
        NextDoor dir rest t ∧ fs.isFile t = true := by
  constructor
  · rintro hconfined ⟨dir, rest, t, hdir, hrest, hnull, hnext, hfile⟩
    have h : '\x00' ∉ dir.text ++ rest := fun hmem =>
      (List.mem_append.mp hmem).elim dir.null_not_mem hnull
    obtain rfl := hnext.eq_text h
    obtain ⟨hstart, hnot⟩ := nextDoor_iff.mpr hnext
    exact hnot (hconfined dir _ hdir
      (static_eq_ok_iff.mpr ⟨dir, rest, hdir, hrest, h, rfl, hstart, hfile⟩))
  · intro hnone dir t hdir hsent
    by_contra hnot
    obtain ⟨dir', rest, hdir', hrest, h, rfl, hstart, hfile⟩ := static_eq_ok_iff.mp hsent
    obtain rfl := Option.some.inj (hdir.symm.trans hdir')
    exact hnone ⟨dir, rest, _, hdir, hrest, fun hmem => h (List.mem_append_right _ hmem),
      nextDoor_iff.mp ⟨hstart, hnot⟩, hfile⟩

end Sent

end Static

/-- `/^…/` for a `uri_path` without special characters. -/
def lineStart (uriPath before after : List Char) : Option ℕ :=
  if (before.getLast?.all fun c => c == '\n') ∧ uriPath.isPrefixOf after = true then
    some uriPath.length
  else none

/-- A public directory, an old one next to it, and a file in there. -/
def withNeighbour : FileSystem where
  pwd := ⟨0, [], fun _ h => absurd h List.not_mem_nil⟩
  home := fun _ => none
  isFile := fun t => t == "/srv/public-old/secret".toList

/-- The file is sent. -/
theorem not_confined_neighbour : ¬ Confined withNeighbour some (lineStart [])
    (some "/srv/public".toList) "/../public-old/secret".toList := by
  intro hconfined
  have hsent : static withNeighbour some (lineStart []) (some "/srv/public".toList)
      "/../public-old/secret".toList = .ok (some "/srv/public-old/secret".toList) := by
    decide +kernel
  have hdir : ∃ dir, expandPath withNeighbour "/srv/public".toList = some dir ∧
      dir.text = "/srv/public".toList := ⟨_, rfl, by decide +kernel⟩
  obtain ⟨dir, hdir, htext⟩ := hdir
  have hbelow := hconfined dir _ hdir hsent
  rw [htext] at hbelow
  exact absurd hbelow (by decide)

end BkPlatform.Cas
