import Mathlib.Data.List.Nodup
import BkPlatform.Lib.Double
import BkPlatform.Lib.Run
import BkPlatform.Labrador.Paging

/-!
# Browsing a collection

The page in the browser keeps what it last asked for, and each press of a button or a key asks
for it again with other options.  An answer comes when it comes: it carries nothing of the
request it is to, and is put in place of what the page shows.

The previous page is the one that starts a page limit before the last one asked for.  The
method that would take the button away at the first page is called nowhere, and the limit may
have grown in between.  Limits and offsets are numbers of the browser, doubles: ten times a
tenth is less than one.

## Main definitions

* `State`, `Action`, `step` — the page.
* `NonNegative` — a request for no negative offset.
* `EnoughBehind` — the condition on pressing the previous page.
* `LastRequestWins`, `LastAnsweredLast` — the claim on the answers, and the condition.

## Main results

* `nonNegative_iff` — **no offset is negative exactly when enough lies behind each time.**
* `lastRequestWins_iff` — **the data are those of the last request exactly when its answer comes
  last**, or says the same.
* `prevPage_updatePagingState` — what the uncalled method would not have prevented.
-/

namespace BkPlatform.Labrador.Browsing

open Double Paging Run

variable {ρ : Type*}

/-! ### The page -/

/-- The options of `find`, as they are sent. -/
structure FindOptions where
  limit : Option Float := none
  skip : Option Float := none
  orderBy : Option String := none
  direction : Option Direction := none
  deriving DecidableEq, Repr

/-- `_.extend(options, newOptions)`. -/
def FindOptions.extend (options newOptions : FindOptions) : FindOptions where
  limit := newOptions.limit.or options.limit
  skip := newOptions.skip.or options.skip
  orderBy := newOptions.orderBy.or options.orderBy
  direction := newOptions.direction.or options.direction

/-- `lastFind`. -/
structure Find where
  collection : String
  options : FindOptions
  deriving DecidableEq, Repr

/-- A request of `find`. -/
structure Request where
  adapter : Option String
  find : Find
  deriving DecidableEq, Repr

/-- What the server answers. -/
structure Data (ρ : Type*) where
  collection : Option String
  items : List ρ
  deriving DecidableEq, Repr

/-- A page limit; `Infinity` is one. -/
abbrev Limit := { limit : Float // 0 < limit }

/-- The page: `app`, its database and the buttons of its footer, with the requests sent, those
of them that wait for an answer, and the answers that came.  A request is known by its place; an
answer is `none` where the request failed. -/
structure State (ρ : Type*) where
  limit : Limit
  adapter : Option String
  lastFind : Option Find
  data : Option (Data ρ)
  prevDisabled : Bool
  nextDisabled : Bool
  refreshDisabled : Bool
  requests : List Request
  waiting : List ℕ
  answers : List (ℕ × Option (Data ρ))

/-- The page when it is loaded, for an application. -/
def start : State ρ where
  limit := ⟨250, by decide⟩
  adapter := none
  lastFind := none
  data := none
  prevDisabled := false
  nextDisabled := false
  refreshDisabled := false
  requests := []
  waiting := []
  answers := []

/-- `Database#find`. -/
def State.find (s : State ρ) (collection : String) (options : FindOptions) : State ρ :=
  let options := { options with
    skip := options.skip.or (some 0), limit := options.limit.or (some s.limit.1) }
  { s with
    lastFind := some ⟨collection, options⟩
    requests := s.requests ++ [⟨s.adapter, collection, options⟩]
    waiting := s.waiting ++ [s.requests.length] }

/-- `Database#filterPrevious`. -/
def State.filterPrevious (s : State ρ) (newOptions : FindOptions) : State ρ :=
  match s.lastFind with
  | none => s
  | some ⟨collection, options⟩ =>
    s.find collection ({ options with limit := some s.limit.1 }.extend newOptions)

/-- `skippedCount`. -/
def State.skippedCount (s : State ρ) : Float :=
  (s.lastFind.bind fun find => find.options.skip).getD 0

/-- `prevPage`, by the button or the left arrow. -/
def State.prevPage (s : State ρ) : State ρ :=
  if s.prevDisabled then s else s.filterPrevious { skip := some (s.skippedCount - s.limit.1) }

/-- `nextPage`, by the button or the right arrow. -/
def State.nextPage (s : State ρ) : State ρ :=
  if s.nextDisabled then s else s.filterPrevious { skip := some (s.skippedCount + s.limit.1) }

/-- `App#showContent`. -/
def State.showContent (s : State ρ) (collection : Option String) : State ρ :=
  match collection.or (s.data.bind Data.collection) with
  | none => s
  | some collection => s.find collection { limit := some s.limit.1 }

/-- `App#isEditable`, where the content is shown. -/
def State.isEditable (s : State ρ) : Bool := (s.data.bind Data.collection).isSome

/-- A click on the head of a column; `direction` is what the head shows. -/
def State.clickHead (s : State ρ) (field : String) (direction : Option Direction) : State ρ :=
  if s.isEditable then
    if direction = some .asc then
      s.filterPrevious { orderBy := some field, direction := some .desc }
    else s.filterPrevious { orderBy := some field, direction := some .asc }
  else s

/-- `refresh`. -/
def State.refresh (s : State ρ) : State ρ :=
  if s.refreshDisabled then s else s.showContent (s.data.bind Data.collection)

/-- The answer to the request at place `n`: the callback of `showContent`. -/
def State.receive (s : State ρ) (n : ℕ) (answer : Option (Data ρ)) : State ρ :=
  { s with
    data := answer, waiting := s.waiting.erase n, answers := s.answers ++ [(n, answer)] }

/-- What can happen to the page. -/
inductive Action (ρ : Type*)
  | select (adapter collection : Option String)
  | nextPage
  | prevPage
  | clickHead (field : String) (direction : Option Direction)
  | configure (limit : Limit)
  | refresh
  | arrive (n : ℕ) (answer : Option (Data ρ))

/-- One step.  Only what waits for an answer is answered. -/
def step (s : State ρ) : Action ρ → State ρ
  | .select adapter collection => { s with adapter := adapter }.showContent collection
  | .nextPage => s.nextPage
  | .prevPage => s.prevPage
  | .clickHead field direction => s.clickHead field direction
  | .configure limit => { s with limit := limit }
  | .refresh => s.refresh
  | .arrive n answer => if n ∈ s.waiting then s.receive n answer else s

/-- The page after the actions. -/
def run (actions : List (Action ρ)) : State ρ := actions.foldl step start

/-! ### What a step does -/

/-- What stands behind a step: it changes the adapter and the limit at most. -/
def State.Like (s t : State ρ) : Prop :=
  ∃ adapter limit, t = { s with adapter := adapter, limit := limit }

theorem State.like_refl (s : State ρ) : s.Like s := ⟨s.adapter, s.limit, rfl⟩

/-- A request is sent, out of a state like `s`. -/
def State.Asks (s t : State ρ) : Prop :=
  ∃ u collection options, s.Like u ∧ t = u.find collection options

theorem State.asks_find (s : State ρ) (collection : String) (options : FindOptions) :
    s.Asks (s.find collection options) :=
  ⟨s, collection, options, s.like_refl, rfl⟩

theorem State.filterPrevious_cases (s : State ρ) (newOptions : FindOptions) :
    s.Like (s.filterPrevious newOptions) ∨ s.Asks (s.filterPrevious newOptions) := by
  unfold State.filterPrevious
  split
  · exact Or.inl s.like_refl
  · exact Or.inr (s.asks_find _ _)

theorem State.showContent_cases (s : State ρ) (collection : Option String) :
    s.Like (s.showContent collection) ∨ s.Asks (s.showContent collection) := by
  unfold State.showContent
  split
  · exact Or.inl s.like_refl
  · exact Or.inr (s.asks_find _ _)

/-- **A step takes an answer, sends a request, or leaves the requests alone.** -/
theorem step_cases (s : State ρ) (a : Action ρ) :
    (∃ n answer, n ∈ s.waiting ∧ step s a = s.receive n answer) ∨
      s.Like (step s a) ∨ s.Asks (step s a) := by
  cases a with
  | select adapter collection =>
    refine Or.inr ?_
    have hlike : s.Like { s with adapter := adapter } := ⟨adapter, s.limit, rfl⟩
    rcases State.showContent_cases { s with adapter := adapter } collection with h | h
    · obtain ⟨b, l, h⟩ := h
      exact Or.inl ⟨b, l, h⟩
    · obtain ⟨u, c, o, ⟨b, l, hu⟩, h⟩ := h
      exact Or.inr ⟨u, c, o, ⟨b, l, hu⟩, h⟩
  | nextPage =>
    simp only [step, State.nextPage]
    split
    · exact Or.inr (Or.inl s.like_refl)
    · exact Or.inr (s.filterPrevious_cases _)
  | prevPage =>
    simp only [step, State.prevPage]
    split
    · exact Or.inr (Or.inl s.like_refl)
    · exact Or.inr (s.filterPrevious_cases _)
  | clickHead field direction =>
    simp only [step, State.clickHead]
    split
    · split <;> exact Or.inr (s.filterPrevious_cases _)
    · exact Or.inr (Or.inl s.like_refl)
  | configure limit => exact Or.inr (Or.inl ⟨s.adapter, limit, rfl⟩)
  | refresh =>
    simp only [step, State.refresh]
    split
    · exact Or.inr (Or.inl s.like_refl)
    · exact Or.inr (s.showContent_cases _)
  | arrive n answer =>
    simp only [step]
    split
    · exact Or.inl ⟨n, answer, by assumption, rfl⟩
    · exact Or.inr (Or.inl s.like_refl)

/-! ### What holds of the page at any time -/

/-- What the page knows of its requests and their answers. -/
structure State.Sound (s : State ρ) : Prop where
  /-- `lastFind` is the last request. -/
  lastFind : s.lastFind = s.requests.getLast?.map Request.find
  /-- Each request has been answered once, or waits. -/
  places : (s.answers.map Prod.fst ++ s.waiting).Perm (List.range s.requests.length)
  /-- The data are the answer that came last. -/
  data : s.data = s.answers.getLast?.bind Prod.snd
  /-- `updatePagingState` is never called. -/
  enabled : s.prevDisabled = false

theorem sound_start : (start : State ρ).Sound where
  lastFind := rfl
  places := List.Perm.refl _
  data := rfl
  enabled := rfl

theorem State.Sound.like {s t : State ρ} (h : s.Sound) (hlike : s.Like t) : t.Sound := by
  obtain ⟨adapter, limit, rfl⟩ := hlike
  exact ⟨h.lastFind, h.places, h.data, h.enabled⟩

theorem State.Sound.find {s : State ρ} (h : s.Sound) (collection : String)
    (options : FindOptions) : (s.find collection options).Sound where
  lastFind := by simp [State.find]
  places := by
    have hplaces := h.places.append_right [s.requests.length]
    rw [List.append_assoc, ← List.range_succ] at hplaces
    simpa [State.find] using hplaces
  data := h.data
  enabled := h.enabled

theorem State.Sound.receive {s : State ρ} (h : s.Sound) {n : ℕ} (hn : n ∈ s.waiting)
    (answer : Option (Data ρ)) : (s.receive n answer).Sound where
  lastFind := h.lastFind
  places := by
    have hwaiting : s.waiting.Perm (n :: s.waiting.erase n) := List.perm_cons_erase hn
    have hplaces := (hwaiting.append_left (s.answers.map Prod.fst)).symm.trans h.places
    simpa [State.receive] using hplaces
  data := by simp [State.receive]
  enabled := h.enabled

theorem State.Sound.step {s : State ρ} (h : s.Sound) (a : Action ρ) : (step s a).Sound := by
  rcases step_cases s a with ⟨n, answer, hn, heq⟩ | hlike | ⟨u, c, o, hlike, heq⟩
  · rw [heq]
    exact h.receive hn answer
  · exact h.like hlike
  · rw [heq]
    exact (h.like hlike).find c o

theorem sound_run (actions : List (Action ρ)) : (run actions).Sound :=
  foldl_inv (fun _ a h => h.step a) sound_start actions

/-! ### Offsets -/

/-- No request was for a negative offset. -/
def State.NonNegative (s : State ρ) : Prop :=
  ∀ r ∈ s.requests, ∃ skip, r.find.options.skip = some skip ∧ 0 ≤ skip

/-- **The condition on the previous page**: the page limit, as it is now, is finite and no greater
than the last offset asked for. -/
def EnoughBehind (s : State ρ) : Action ρ → Prop
  | .prevPage => s.lastFind.isSome → s.limit.1 ≤ s.skippedCount ∧ s.limit.1.isFinite
  | _ => True

variable {s t : State ρ}

theorem nonNegative_start : (start : State ρ).NonNegative := fun _ h => by cases h

theorem State.NonNegative.like (h : s.NonNegative) (hlike : s.Like t) : t.NonNegative := by
  obtain ⟨adapter, limit, rfl⟩ := hlike
  exact h

/-- A request starts at the offset it is given, or at the first row. -/
theorem State.NonNegative.find_iff (h : s.NonNegative) (collection : String)
    (options : FindOptions) :
    (s.find collection options).NonNegative ↔ 0 ≤ options.skip.getD 0 := by
  have hskip : options.skip.or (some 0) = some (options.skip.getD 0) := by
    cases options.skip with
    | none => rfl
    | some skip => rfl
  constructor
  · intro hfind
    obtain ⟨skip, heq, hnonneg⟩ :=
      hfind _ (List.mem_append_right s.requests (List.mem_singleton_self _))
    obtain rfl : options.skip.getD 0 = skip := Option.some.inj (hskip.symm.trans heq)
    exact hnonneg
  · intro hnonneg r hr
    rcases List.mem_append.mp hr with hr | hr
    · exact h r hr
    · obtain rfl := List.mem_singleton.mp hr
      exact ⟨options.skip.getD 0, hskip, hnonneg⟩

/-- Asked again, a request starts at the offset it is given, or where it started before. -/
theorem State.NonNegative.filterPrevious_iff (h : s.NonNegative) (newOptions : FindOptions) :
    (s.filterPrevious newOptions).NonNegative ↔
      (s.lastFind.isSome → 0 ≤ newOptions.skip.getD s.skippedCount) := by
  unfold State.filterPrevious State.skippedCount
  cases s.lastFind with
  | none => simp [h]
  | some find =>
    obtain ⟨collection, options⟩ := find
    have hgetD : (newOptions.skip.or options.skip).getD 0 =
        newOptions.skip.getD (options.skip.getD 0) := by
      cases newOptions.skip with
      | none => rfl
      | some skip => rfl
    simp only [h.find_iff, FindOptions.extend, Option.isSome_some, true_imp_iff,
      Option.bind_some, hgetD]

theorem State.NonNegative.showContent (h : s.NonNegative) (collection : Option String) :
    (s.showContent collection).NonNegative := by
  unfold State.showContent
  split
  · exact h
  · exact (h.find_iff _ _).mpr (by decide : (0 : Float) ≤ 0)

/-- The offset of the last request is the one to start from. -/
theorem State.NonNegative.skippedCount (h : s.NonNegative) (hsound : s.Sound) :
    0 ≤ s.skippedCount := by
  unfold State.skippedCount
  rw [hsound.lastFind]
  cases hlast : s.requests.getLast? with
  | none => exact (by decide : (0 : Float) ≤ 0)
  | some r =>
    obtain ⟨skip, hskip, hnonneg⟩ := h r (List.mem_of_getLast? hlast)
    simpa [hskip] using hnonneg

/-- **A step asks for a negative offset exactly where too little lies behind.** -/
theorem nonNegative_step_iff (h : s.NonNegative) (hsound : s.Sound) (a : Action ρ) :
    (step s a).NonNegative ↔ EnoughBehind s a := by
  have hcount : 0 ≤ s.skippedCount := h.skippedCount hsound
  cases a with
  | select adapter collection =>
    have hlike : s.Like { s with adapter := adapter } := ⟨adapter, s.limit, rfl⟩
    exact iff_of_true ((h.like hlike).showContent collection) trivial
  | nextPage =>
    refine iff_of_true ?_ trivial
    simp only [step, State.nextPage]
    split
    · exact h
    · exact (h.filterPrevious_iff _).mpr fun _ =>
        zero_le_add hcount (zero_le_of_zero_lt s.limit.2)
  | prevPage =>
    have henabled : ¬s.prevDisabled = true := by simp [hsound.enabled]
    simp only [step, State.prevPage, if_neg henabled, EnoughBehind, h.filterPrevious_iff,
      Option.getD_some, zero_le_sub_iff hcount s.limit.2]
  | clickHead field direction =>
    refine iff_of_true ?_ trivial
    simp only [step, State.clickHead]
    split
    · split <;> exact (h.filterPrevious_iff _).mpr fun _ => hcount
    · exact h
  | configure limit => exact iff_of_true h trivial
  | refresh =>
    refine iff_of_true ?_ trivial
    simp only [step, State.refresh]
    split
    · exact h
    · exact h.showContent _
  | arrive n answer =>
    refine iff_of_true ?_ trivial
    simp only [step]
    split
    · exact h
    · exact h

/-- Requests that were sent stay sent. -/
theorem nonNegative_of_step (s : State ρ) (a : Action ρ) (h : (step s a).NonNegative) :
    s.NonNegative := by
  rcases step_cases s a with ⟨n, answer, -, heq⟩ | ⟨adapter, limit, heq⟩ | ⟨u, c, o, hlike, heq⟩
  · rw [heq] at h
    exact h
  · rw [heq] at h
    exact h
  · obtain ⟨adapter, limit, rfl⟩ := hlike
    rw [heq] at h
    exact fun r hr => h r (List.mem_append_left _ hr)

/-- **No request of a run is for a negative offset exactly when enough lies behind each time the
previous page is asked for.** -/
theorem nonNegative_iff (actions : List (Action ρ)) :
    (run actions).NonNegative ↔ Along (total step) EnoughBehind start actions := by
  have hiff : Along (total step) (fun s a => (step s a).NonNegative) start actions ↔
      Along (total step) EnoughBehind (start : State ρ) actions :=
    along_iff (I := fun s => s.Sound ∧ s.NonNegative)
      (fun s a _ t hI hG ht => Option.some.inj ht ▸ ⟨hI.1.step a, hG⟩)
      (fun s a _ hI => nonNegative_step_iff hI.2 hI.1 a) ⟨sound_start, nonNegative_start⟩
  rw [← hiff]
  constructor
  · intro h
    exact (along_of_foldl nonNegative_of_step h).1
  · intro h
    exact foldl_inv_along (f := step) (fun _ _ _ hG => hG) nonNegative_start h

/-- Ten pages of a tenth have less than one behind them. -/
example : (run ([.select (some "mysql") (some "orders"), .configure ⟨0.1, by decide⟩] ++
    List.replicate 10 .nextPage) : State String).skippedCount < 1 := by
  decide +kernel

/-- A collection is selected, and the previous page asked for. -/
theorem not_nonNegative_firstPage :
    ¬∀ actions : List (Action String), (run actions).NonNegative := by
  intro h
  let first : List (Action String) := [.select (some "mysql") (some "orders")]
  have hprev : (step (run first) .prevPage).NonNegative := by
    have hrun := h (first ++ [.prevPage])
    rwa [run, List.foldl_append] at hrun
  have henough : (250 : Float) ≤ 0 :=
    ((nonNegative_step_iff (h first) (sound_run first) .prevPage).mp hprev rfl).1
  exact absurd henough (by decide)

/-- `updatePagingState`, which nothing calls; a missing answer or request is an error. -/
def State.updatePagingState (s : State ρ) : Option (State ρ) :=
  s.data.bind fun data => s.lastFind.bind fun find => find.options.limit.map fun (limit : Float) =>
    let t := { s with prevDisabled := false, nextDisabled := false }
    let t :=
      if data.items.length = 0 then
        { t with prevDisabled := s.skippedCount == 0, nextDisabled := true }
      else if Float.ofNat data.items.length < limit then { t with nextDisabled := true }
      else t
    if s.skippedCount == 0 then { t with prevDisabled := true } else t

/-- The buttons are all that `updatePagingState` changes. -/
theorem State.updatePagingState_eq (h : s.updatePagingState = some t) :
    ∃ next, t = { s with prevDisabled := s.skippedCount == 0, nextDisabled := next } := by
  obtain ⟨data, -, h⟩ := Option.bind_eq_some_iff.mp h
  obtain ⟨find, -, h⟩ := Option.bind_eq_some_iff.mp h
  obtain ⟨limit, -, rfl⟩ := Option.map_eq_some_iff.mp h
  cases s.skippedCount == 0 with
  | true =>
    simp only [if_true]
    split
    · exact ⟨true, rfl⟩
    · split
      · exact ⟨true, rfl⟩
      · exact ⟨false, rfl⟩
  | false =>
    simp only [Bool.false_eq_true, if_false]
    split
    · exact ⟨true, rfl⟩
    · split
      · exact ⟨true, rfl⟩
      · exact ⟨false, rfl⟩

/-- **The method takes the button away on the first page only**: with less than a page limit
behind, the previous page would still start at a negative offset. -/
theorem prevPage_updatePagingState (h : s.NonNegative) (hsound : s.Sound)
    (hupdate : s.updatePagingState = some t) :
    t.prevPage.NonNegative ↔
      s.skippedCount == 0 ∨ s.limit.1 ≤ s.skippedCount ∧ s.limit.1.isFinite := by
  have hasked : s.lastFind.isSome := by
    obtain ⟨data, -, hrest⟩ := Option.bind_eq_some_iff.mp hupdate
    obtain ⟨find, hfind, -⟩ := Option.bind_eq_some_iff.mp hrest
    simp [hfind]
  obtain ⟨next, rfl⟩ := State.updatePagingState_eq hupdate
  simp only [State.prevPage]
  by_cases hfirst : s.skippedCount == 0
  · rw [if_pos hfirst]
    exact iff_of_true h (Or.inl hfirst)
  · have hnonneg : State.NonNegative
        { s with prevDisabled := s.skippedCount == 0, nextDisabled := next } := h
    rw [if_neg hfirst, hnonneg.filterPrevious_iff]
    simp only [hasked, hfirst, Bool.false_eq_true, false_or, true_imp_iff, Option.getD_some]
    exact zero_le_sub_iff (h.skippedCount hsound) s.limit.2

/-! ### Answers -/

/-- **The data are those of the last request**, the one in `lastFind`. -/
def State.LastRequestWins (s : State ρ) : Prop :=
  s.lastFind = s.requests.getLast?.map Request.find ∧
    ∀ n, n + 1 = s.requests.length →
      ∃ answer, (n, answer) ∈ s.answers ∧ s.data = answer

/-- The condition on the order: the answer that comes last is the one to the last request, or
says the same. -/
def State.LastAnsweredLast (s : State ρ) : Prop :=
  ∀ n answer, n + 1 = s.requests.length → (n, answer) ∈ s.answers →
    ∃ m, s.answers.getLast? = some (m, answer)

/-- Once all answers are there, each request has one, and only one. -/
theorem State.Sound.exists_answer (h : s.Sound) (hall : s.waiting = []) {n : ℕ}
    (hn : n < s.requests.length) : ∃ answer, (n, answer) ∈ s.answers := by
  have hplaces := h.places
  rw [hall, List.append_nil] at hplaces
  have hmem : n ∈ s.answers.map Prod.fst := hplaces.mem_iff.mpr (List.mem_range.mpr hn)
  obtain ⟨⟨m, answer⟩, hanswer, rfl⟩ := List.mem_map.mp hmem
  exact ⟨answer, hanswer⟩

theorem State.Sound.answer_unique (h : s.Sound) {n : ℕ} {answer answer' : Option (Data ρ)}
    (hanswer : (n, answer) ∈ s.answers) (hanswer' : (n, answer') ∈ s.answers) :
    answer = answer' := by
  have hnodup : (s.answers.map Prod.fst).Nodup :=
    (h.places.nodup_iff.mpr List.nodup_range).of_append_left
  have heq := List.inj_on_of_nodup_map hnodup hanswer hanswer' rfl
  exact (Prod.mk.inj heq).2

/-- **Once all answers are there, the data are those of the last request exactly when its answer
came last**, or said the same. -/
theorem lastRequestWins_iff (actions : List (Action ρ)) (hall : (run actions).waiting = []) :
    (run actions).LastRequestWins ↔ (run actions).LastAnsweredLast := by
  have hsound := sound_run actions
  generalize run actions = s at hall hsound
  constructor
  · rintro ⟨-, hwins⟩ n answer hn hanswer
    obtain ⟨answer', hanswer', hdata⟩ := hwins n hn
    obtain rfl := hsound.answer_unique hanswer hanswer'
    have hlast : s.answers ≠ [] := List.ne_nil_of_mem hanswer
    rw [hsound.data, List.getLast?_eq_some_getLast hlast, Option.bind_some] at hdata
    rw [List.getLast?_eq_some_getLast hlast, ← hdata]
    exact ⟨_, rfl⟩
  · intro hlast
    refine ⟨hsound.lastFind, fun n hn => ?_⟩
    obtain ⟨answer, hanswer⟩ := hsound.exists_answer hall (by omega : n < s.requests.length)
    obtain ⟨m, heq⟩ := hlast n answer hn hanswer
    exact ⟨answer, hanswer, by rw [hsound.data, heq, Option.bind_some]⟩

/-- Two collections are selected, and the answer to the first comes last. -/
def overtaken : List (Action String) :=
  [.select (some "mysql") (some "orders"), .select (some "mysql") (some "items"),
    .arrive 1 (some ⟨some "items", []⟩), .arrive 0 (some ⟨some "orders", []⟩)]

theorem lastRequestWins_iff_overtaken :
    (run overtaken).waiting = [] ∧
      ((run overtaken).LastRequestWins ↔ (run overtaken).LastAnsweredLast) :=
  ⟨by decide, lastRequestWins_iff overtaken (by decide)⟩

/-- The orders are shown, and the items were asked for. -/
theorem not_lastRequestWins_overtaken :
    ¬∀ actions : List (Action String), (run actions).waiting = [] →
      (run actions).LastRequestWins := by
  intro h
  obtain ⟨-, hwins⟩ := h overtaken (by decide)
  obtain ⟨answer, hanswer, hdata⟩ := hwins 1 rfl
  obtain rfl : some ⟨some "orders", []⟩ = answer := hdata
  exact absurd hanswer (by decide)

end BkPlatform.Labrador.Browsing
