import BkPlatform.Labrador.Browsing

/-!
# Editing and deleting the rows shown

A row is edited in a popover on its cell and deleted in a dialog.  Both remember the row, and
take the adapter and the collection from the page at the moment the command is sent: the
adapter is the one clicked on last, and the collection that of the answer that came last,
whatever has been shown, opened and answered in between.  An answer takes the rows and the
popover away, but not the dialog, and not the rows of an earlier answer that are still being
put together; a click takes the rows away only.

## Main definitions

* `Page`, `Action`, `step` — the page with its table, its popover and its dialog.
* `Place` — an adapter and a collection.
* `Secure` — whatever is pressed, at any time, no command goes to another place than that of
  its row.
* `Calm` — the condition on an answer and a click.

## Main results

* `guarded_iff` — what can go wrong with a page.
* `secure_iff` — **the page is secure exactly as long as every answer and every click leaves
  nothing of another place behind.**
-/

namespace BkPlatform.Labrador.Editing

open Browsing Run

variable {ρ : Type*}

/-! ### The page -/

/-- What a URL is about. -/
structure Place where
  adapter : Option String
  collection : Option String
  deriving DecidableEq, Repr

/-- A row as it is shown, and where it is from: the adapter of the request and the collection of
its answer. -/
structure ShownRow (ρ : Type*) where
  place : Place
  item : ρ
  deriving DecidableEq, Repr

/-- `update` and `delete`. -/
inductive Verb
  | update
  | delete
  deriving DecidableEq, Repr

/-- A command that was sent, for a row, and what its URL says. -/
structure Sent (ρ : Type*) where
  verb : Verb
  place : Place
  row : ShownRow ρ
  deriving DecidableEq, Repr

/-- The page: what it has asked for and been answered, the bodies that are being put together,
the rows in the table, the one that is marked, and the rows the popover and the dialog are
about. -/
structure Page (ρ : Type*) where
  browser : State ρ
  rendering : List (List (ShownRow ρ))
  shown : List (ShownRow ρ)
  selected : Option (ShownRow ρ)
  popover : Option (ShownRow ρ)
  dialog : Option (ShownRow ρ)
  sent : List (Sent ρ)

/-- The page when it is loaded. -/
def start : Page ρ where
  browser := Browsing.start
  rendering := []
  shown := []
  selected := none
  popover := none
  dialog := none
  sent := []

/-- The adapter of the database, and `Database#collection`. -/
def placeOf (s : State ρ) : Place := ⟨s.adapter, s.data.bind Data.collection⟩

/-- Where a command would go. -/
def Page.place (p : Page ρ) : Place := placeOf p.browser

/-- The adapter that the `n`-th request was for. -/
def Page.asked (p : Page ρ) (n : ℕ) : Option String := p.browser.requests[n]?.bind Request.adapter

/-- `before:send`: `emptyBody`. -/
def Page.beforeSend (p : Page ρ) : Page ρ := { p with shown := [], selected := none }

/-- `render`: the popover is hidden, the table emptied, and the rows are put together, if
there are any. -/
def Page.render (p : Page ρ) (adapter : Option String) (data : Data ρ) : Page ρ :=
  { p with
    popover := none
    shown := []
    selected := none
    rendering :=
      if data.items.isEmpty then p.rendering
      else p.rendering ++ [data.items.map (ShownRow.mk ⟨adapter, data.collection⟩)] }

/-- An answer.  For a failed request the message of the error takes the place of the dialog,
and `render` raises at once. -/
def Page.receive (p : Page ρ) (n : ℕ) : Option (Data ρ) → Page ρ
  | some data =>
    { p with browser := p.browser.receive n (some data) }.render (p.asked n) data
  | none => { p with browser := p.browser.receive n none, dialog := none }

/-- What is pressed outside the table: the table is emptied if a request is sent. -/
def Page.press (p : Page ρ) (a : Browsing.Action ρ) : Page ρ :=
  let q := { p with browser := Browsing.step p.browser a }
  if q.browser.requests.length = p.browser.requests.length then q else q.beforeSend

/-- `q.drain`: a body is complete, and its rows are appended. -/
def Page.drain (p : Page ρ) (i : ℕ) : Page ρ :=
  match p.rendering[i]? with
  | none => p
  | some rows => { p with rendering := p.rendering.eraseIdx i, shown := p.shown ++ rows }

/-- A double click on a cell of the row: the popover is shown. -/
def Page.edit (p : Page ρ) (i : ℕ) : Page ρ :=
  if p.browser.isEditable then { p with popover := p.shown[i]?.or p.popover } else p

/-- `onSave`. -/
def Page.save (p : Page ρ) : Page ρ :=
  match p.popover with
  | none => p
  | some row => { p with popover := none, sent := p.sent ++ [⟨.update, p.place, row⟩] }

/-- `deleteItem`: the dialog is shown for the row that is marked. -/
def Page.deleteItem (p : Page ρ) : Page ρ :=
  if p.browser.isEditable then { p with dialog := p.selected.or p.dialog } else p

/-- The button of the dialog. -/
def Page.ok (p : Page ρ) : Page ρ :=
  match p.dialog with
  | none => p
  | some row => { p with dialog := none, sent := p.sent ++ [⟨.delete, p.place, row⟩] }

/-- What happens at the table, the popover and the dialog. -/
inductive Hand
  | drain (i : ℕ)
  | click (i : ℕ)
  | edit (i : ℕ)
  | save
  | hideTooltips
  | deleteItem
  | ok
  | closeDialog
  deriving DecidableEq, Repr

/-- One of these. -/
def Page.hand (p : Page ρ) : Hand → Page ρ
  | .drain i => p.drain i
  | .click i => { p with selected := p.shown[i]?.or p.selected }
  | .edit i => p.edit i
  | .save => p.save
  | .hideTooltips => { p with popover := none }
  | .deleteItem => p.deleteItem
  | .ok => p.ok
  | .closeDialog => { p with dialog := none }

/-- What can happen to the page. -/
inductive Action (ρ : Type*)
  | arrive (n : ℕ) (answer : Option (Data ρ))
  | press (a : Browsing.Action ρ)
  | hand (h : Hand)

/-- One step.  Answers come as such. -/
def step (p : Page ρ) : Action ρ → Page ρ
  | .arrive n answer => if n ∈ p.browser.waiting then p.receive n answer else p
  | .press (.arrive _ _) => p
  | .press a => p.press a
  | .hand h => p.hand h

/-! ### The property -/

/-- **Every command has gone where its row is from.** -/
def Page.RightPlace (p : Page ρ) : Prop := ∀ c ∈ p.sent, c.place = c.row.place

/-- It is so whatever is done at the table, the popover and the dialog from now on. -/
def Page.Guarded (p : Page ρ) : Prop :=
  ∀ hands : List Hand, (hands.foldl Page.hand p).RightPlace

/-- It is so at any time of the run. -/
def Secure (actions : List (Action ρ)) : Prop :=
  ∀ before after, actions = before ++ after → (before.foldl step start).Guarded

/-! ### The condition -/

/-- The popover, the dialog and the bodies that are being put together are of the place; bodies
of any place will do where there is no collection, as nothing can be edited then. -/
structure Page.Fits (p : Page ρ) (place : Place) : Prop where
  popover : ∀ row ∈ p.popover, row.place = place
  dialog : ∀ row ∈ p.dialog, row.place = place
  rendering : place.collection.isSome → ∀ rows ∈ p.rendering, ∀ row ∈ rows, row.place = place

/-- What an answer leaves behind is of the adapter clicked on last and of its collection, and its
own rows are of this adapter; the message of an error leaves no dialog behind. -/
def Page.FitsAnswer (p : Page ρ) (n : ℕ) : Option (Data ρ) → Prop
  | some data =>
    { p with popover := none }.Fits ⟨p.place.adapter, data.collection⟩ ∧
      (data.collection.isSome → data.items ≠ [] → p.asked n = p.place.adapter)
  | none => { p with dialog := none }.Fits ⟨p.place.adapter, none⟩

/-- **The condition on an answer and a click**: what stays behind is of the adapter and the
collection that the page has then. -/
def Calm (p : Page ρ) : Action ρ → Prop
  | .arrive n answer => n ∈ p.browser.waiting → p.FitsAnswer n answer
  | .press (.select adapter _) => p.Fits ⟨adapter, p.place.collection⟩
  | _ => True

/-- What the condition keeps: the popover, the dialog and the bodies are of the place of the page,
and so are the rows shown as long as there is a collection. -/
structure Page.Safe (p : Page ρ) : Prop extends Page.Fits p p.place where
  selected : p.place.collection.isSome → ∀ row ∈ p.selected, row.place = p.place
  shown : p.place.collection.isSome → ∀ row ∈ p.shown, row.place = p.place

theorem safe_start : (start : Page ρ).Safe where
  popover := by simp [start]
  dialog := by simp [start]
  selected := by simp [start]
  shown := by simp [start]
  rendering := by simp [start]

variable {p : Page ρ}

/-! ### The table, the popover and the dialog -/

/-- **Nothing done there makes a row be one of another place.** -/
theorem Page.Safe.hand (hp : p.Safe) (h : Hand) : (p.hand h).Safe := by
  have hnone : ∀ row ∈ (none : Option (ShownRow ρ)), row.place = p.place := by simp
  cases h with
  | drain i =>
    show (p.drain i).Safe
    unfold Page.drain
    split
    · exact hp
    · next rows hrows =>
      have hmem : rows ∈ p.rendering := List.mem_of_getElem? hrows
      -- the body that is complete was one of those being put together
      refine ⟨⟨hp.popover, hp.dialog, fun hsome rows' hrows' =>
        hp.rendering hsome rows' (List.mem_of_mem_eraseIdx hrows')⟩, hp.selected,
        fun hsome row hrow => ?_⟩
      rcases List.mem_append.mp hrow with hold | hnew
      · exact hp.shown hsome row hold
      · exact hp.rendering hsome rows hmem row hnew
  | click i =>
    refine ⟨⟨hp.popover, hp.dialog, hp.rendering⟩, fun hsome row hrow => ?_, hp.shown⟩
    rcases Option.or_eq_some_iff.mp hrow with hnew | ⟨-, hold⟩
    · exact hp.shown hsome row (List.mem_of_getElem? hnew)
    · exact hp.selected hsome row hold
  | edit i =>
    show (p.edit i).Safe
    unfold Page.edit
    split
    · next heditable =>
      refine ⟨⟨fun row hrow => ?_, hp.dialog, hp.rendering⟩, hp.selected, hp.shown⟩
      rcases Option.or_eq_some_iff.mp hrow with hnew | ⟨-, hold⟩
      · exact hp.shown heditable row (List.mem_of_getElem? hnew)
      · exact hp.popover row hold
    · exact hp
  | save =>
    show p.save.Safe
    unfold Page.save
    split
    · exact hp
    · exact ⟨⟨hnone, hp.dialog, hp.rendering⟩, hp.selected, hp.shown⟩
  | hideTooltips => exact ⟨⟨hnone, hp.dialog, hp.rendering⟩, hp.selected, hp.shown⟩
  | deleteItem =>
    show p.deleteItem.Safe
    unfold Page.deleteItem
    split
    · next heditable =>
      refine ⟨⟨hp.popover, fun row hrow => ?_, hp.rendering⟩, hp.selected, hp.shown⟩
      rcases Option.or_eq_some_iff.mp hrow with hnew | ⟨-, hold⟩
      · exact hp.selected heditable row hnew
      · exact hp.dialog row hold
    · exact hp
  | ok =>
    show p.ok.Safe
    unfold Page.ok
    split
    · exact hp
    · exact ⟨⟨hp.popover, hnone, hp.rendering⟩, hp.selected, hp.shown⟩
  | closeDialog => exact ⟨⟨hp.popover, hnone, hp.rendering⟩, hp.selected, hp.shown⟩

/-- A command sent for such a row goes to the right place. -/
theorem Page.RightPlace.hand (hright : p.RightPlace) (hp : p.Safe) (h : Hand) :
    (p.hand h).RightPlace := by
  have hsend : ∀ (verb : Verb) (row : ShownRow ρ), row.place = p.place →
      ∀ c ∈ p.sent ++ [⟨verb, p.place, row⟩], c.place = c.row.place := by
    intro verb row hrow c hc
    rcases List.mem_append.mp hc with hold | hnew
    · exact hright c hold
    · obtain rfl := List.mem_singleton.mp hnew
      exact hrow.symm
  cases h with
  | drain i =>
    show (p.drain i).RightPlace
    unfold Page.drain
    split
    · exact hright
    · exact hright
  | click i => exact hright
  | edit i =>
    show (p.edit i).RightPlace
    unfold Page.edit
    split
    · exact hright
    · exact hright
  | save =>
    show p.save.RightPlace
    unfold Page.save
    split
    · exact hright
    · next row hrow => exact hsend .update row (hp.popover row hrow)
  | hideTooltips => exact hright
  | deleteItem =>
    show p.deleteItem.RightPlace
    unfold Page.deleteItem
    split
    · exact hright
    · exact hright
  | ok =>
    show p.ok.RightPlace
    unfold Page.ok
    split
    · exact hright
    · next row hrow => exact hsend .delete row (hp.dialog row hrow)
  | closeDialog => exact hright

theorem Page.Safe.guarded (hp : p.Safe) (hright : p.RightPlace) : p.Guarded := by
  intro hands
  induction hands generalizing p with
  | nil => exact hright
  | cons h hands ih => exact ih (hp.hand h) (hright.hand hp h)

/-! ### What can be made use of -/

/-- A page goes wrong where a command has been sent for a row of another place. -/
theorem Page.Guarded.place_eq (hguarded : p.Guarded) (hands : List Hand) {c : Sent ρ}
    (hc : c ∈ (hands.foldl Page.hand p).sent) : c.row.place = c.place :=
  (hguarded hands c hc).symm

/-- A page from which something is done is guarded as well. -/
theorem Page.Guarded.hand (hguarded : p.Guarded) (h : Hand) : (p.hand h).Guarded :=
  fun hands => hguarded (h :: hands)

theorem Page.Guarded.popover (hguarded : p.Guarded) : ∀ row ∈ p.popover, row.place = p.place := by
  intro row hrow
  have hpopover : p.popover = some row := hrow
  refine hguarded.place_eq [.save] (c := ⟨.update, p.place, row⟩) ?_
  simp [Page.hand, Page.save, hpopover]

theorem Page.Guarded.dialog (hguarded : p.Guarded) : ∀ row ∈ p.dialog, row.place = p.place := by
  intro row hrow
  have hdialog : p.dialog = some row := hrow
  refine hguarded.place_eq [.ok] (c := ⟨.delete, p.place, row⟩) ?_
  simp [Page.hand, Page.ok, hdialog]

/-- What is shown can be edited. -/
theorem Page.Guarded.shown (hguarded : p.Guarded) (hsome : p.place.collection.isSome) :
    ∀ row ∈ p.shown, row.place = p.place := by
  intro row hrow
  obtain ⟨i, hi⟩ := List.mem_iff_getElem?.mp hrow
  have heditable : p.browser.isEditable = true := hsome
  have hedit : p.hand (.edit i) = { p with popover := some row } := by
    simp [Page.hand, Page.edit, heditable, hi]
  have hafter := (hguarded.hand (.edit i)).popover
  rw [hedit] at hafter
  exact hafter row rfl

/-- What is marked can be deleted. -/
theorem Page.Guarded.selected (hguarded : p.Guarded) (hsome : p.place.collection.isSome) :
    ∀ row ∈ p.selected, row.place = p.place := by
  intro row hrow
  have hselected : p.selected = some row := hrow
  have heditable : p.browser.isEditable = true := hsome
  have hdelete : p.hand .deleteItem = { p with dialog := some row } := by
    simp [Page.hand, Page.deleteItem, heditable, hselected]
  have hafter := (hguarded.hand .deleteItem).dialog
  rw [hdelete] at hafter
  exact hafter row rfl

/-- A body that is complete only now is shown as any other. -/
theorem Page.Guarded.rendering (hguarded : p.Guarded) (hsome : p.place.collection.isSome) :
    ∀ rows ∈ p.rendering, ∀ row ∈ rows, row.place = p.place := by
  intro rows hrows row hrow
  obtain ⟨i, hi⟩ := List.mem_iff_getElem?.mp hrows
  have hdrain : p.hand (.drain i) =
      { p with rendering := p.rendering.eraseIdx i, shown := p.shown ++ rows } := by
    simp [Page.hand, Page.drain, hi]
  have hafter := (hguarded.hand (.drain i)).shown
  rw [hdrain] at hafter
  exact hafter hsome row (List.mem_append_right _ hrow)

/-- **A page is guarded exactly if all that a command can be sent for is of its place.** -/
theorem guarded_iff (p : Page ρ) : p.Guarded ↔ p.RightPlace ∧ p.Safe := by
  constructor
  · intro hguarded
    exact ⟨hguarded [], ⟨hguarded.popover, hguarded.dialog, hguarded.rendering⟩,
      hguarded.selected, hguarded.shown⟩
  · rintro ⟨hright, hp⟩
    exact hp.guarded hright

/-! ### Requests and answers -/

/-- Where the table is empty, or nothing can be edited, it is what stays behind that counts. -/
theorem safe_iff_fits (hempty : p.place.collection.isSome → p.selected = none ∧ p.shown = []) :
    p.Safe ↔ p.Fits p.place := by
  refine ⟨fun hp => hp.toFits, fun hfits => ⟨hfits, fun hsome => ?_, fun hsome => ?_⟩⟩
  · simp [(hempty hsome).1]
  · simp [(hempty hsome).2]

theorem place_filterPrevious (s : State ρ) (newOptions : FindOptions) :
    placeOf (s.filterPrevious newOptions) = placeOf s := by
  unfold State.filterPrevious
  split
  · rfl
  · rfl

theorem place_showContent (s : State ρ) (collection : Option String) :
    placeOf (s.showContent collection) = placeOf s := by
  unfold State.showContent
  split
  · rfl
  · rfl

/-- What is pressed asks for data and does not change the place, but for the adapter that is
clicked on. -/
theorem place_step (s : State ρ) {a : Browsing.Action ρ}
    (harrive : ∀ n answer, a ≠ .arrive n answer)
    (hselect : ∀ adapter collection, a ≠ .select adapter collection) :
    placeOf (Browsing.step s a) = placeOf s := by
  cases a with
  | arrive n answer => exact absurd rfl (harrive n answer)
  | select adapter collection => exact absurd rfl (hselect adapter collection)
  | nextPage =>
    simp only [Browsing.step, State.nextPage]
    split
    · rfl
    · exact place_filterPrevious s _
  | prevPage =>
    simp only [Browsing.step, State.prevPage]
    split
    · rfl
    · exact place_filterPrevious s _
  | clickHead field direction =>
    simp only [Browsing.step, State.clickHead]
    split
    · split
      · exact place_filterPrevious s _
      · exact place_filterPrevious s _
    · rfl
  | configure limit => rfl
  | refresh =>
    simp only [Browsing.step, State.refresh]
    split
    · rfl
    · exact place_showContent s _

/-- What is pressed outside the table leaves the popover, the dialog and the bodies, and the table
as it is or empty. -/
theorem Page.press_cases (p : Page ρ) (a : Browsing.Action ρ) :
    (Browsing.step p.browser a).requests.length = p.browser.requests.length ∧
        p.press a = { p with browser := Browsing.step p.browser a } ∨
      p.press a =
        { p with browser := Browsing.step p.browser a, shown := [], selected := none } := by
  unfold Page.press
  simp only
  split
  · next hsame => exact Or.inl ⟨hsame, rfl⟩
  · exact Or.inr rfl

theorem Page.sent_press (p : Page ρ) (a : Browsing.Action ρ) : (p.press a).sent = p.sent := by
  rcases p.press_cases a with ⟨-, heq⟩ | heq
  · rw [heq]
  · rw [heq]

theorem Page.place_press (p : Page ρ) (a : Browsing.Action ρ) :
    (p.press a).place = placeOf (Browsing.step p.browser a) := by
  rcases p.press_cases a with ⟨-, heq⟩ | heq
  · rw [heq]
    rfl
  · rw [heq]
    rfl

theorem fits_congr {q : Page ρ} {place : Place} (hpopover : q.popover = p.popover)
    (hdialog : q.dialog = p.dialog) (hrendering : q.rendering = p.rendering) :
    q.Fits place ↔ p.Fits place := by
  constructor
  · intro h
    exact ⟨hpopover ▸ h.popover, hdialog ▸ h.dialog, hrendering ▸ h.rendering⟩
  · intro h
    exact ⟨hpopover ▸ h.popover, hdialog ▸ h.dialog, hrendering ▸ h.rendering⟩

/-- What stays behind is what was there. -/
theorem Page.fits_press (p : Page ρ) (a : Browsing.Action ρ) (place : Place) :
    (p.press a).Fits place ↔ p.Fits place := by
  rcases p.press_cases a with ⟨-, heq⟩ | heq
  · rw [heq]
    exact fits_congr rfl rfl rfl
  · rw [heq]
    exact fits_congr rfl rfl rfl

/-- **No other request makes a row be one of another place.** -/
theorem Page.Safe.press (hp : p.Safe) {a : Browsing.Action ρ}
    (harrive : ∀ n answer, a ≠ .arrive n answer)
    (hselect : ∀ adapter collection, a ≠ .select adapter collection) : (p.press a).Safe := by
  have hplace : (p.press a).place = p.place :=
    (p.place_press a).trans (place_step p.browser harrive hselect)
  have hfits : (p.press a).Fits p.place := (p.fits_press a p.place).mpr hp.toFits
  rcases p.press_cases a with ⟨-, heq⟩ | heq
  · refine ⟨hplace.symm ▸ hfits, ?_, ?_⟩
    · rw [hplace, heq]
      exact hp.selected
    · rw [hplace, heq]
      exact hp.shown
  · exact (safe_iff_fits fun _ => by simp [heq]).mpr (hplace.symm ▸ hfits)

/-- A click where no request is sent: there is no collection. -/
theorem collection_of_select {s : State ρ} {adapter collection : Option String}
    (hsame : (Browsing.step s (.select adapter collection)).requests.length = s.requests.length) :
    (placeOf s).collection = none := by
  simp only [Browsing.step, State.showContent] at hsame
  split at hsame
  · next hnone => exact (Option.or_eq_none_iff.mp hnone).2
  · simp [State.find] at hsame

/-- **A click leaves the page safe exactly if what stays behind is of the adapter clicked on.** -/
theorem safe_select_iff (p : Page ρ) (adapter collection : Option String) :
    (p.press (.select adapter collection)).Safe ↔ p.Fits ⟨adapter, p.place.collection⟩ := by
  have hstep : placeOf (Browsing.step p.browser (.select adapter collection)) =
      ⟨adapter, p.place.collection⟩ := place_showContent { p.browser with adapter := adapter } _
  have hplace := (p.place_press (.select adapter collection)).trans hstep
  have hempty : (p.press (.select adapter collection)).place.collection.isSome →
      (p.press (.select adapter collection)).selected = none ∧
        (p.press (.select adapter collection)).shown = [] := by
    rcases p.press_cases (.select adapter collection) with ⟨hsame, -⟩ | heq
    · -- the click sends no request
      have hnone : p.place.collection = none := collection_of_select hsame
      simp [hplace, hnone]
    · simp [heq]
  rw [safe_iff_fits hempty, hplace]
  exact p.fits_press _ _

theorem Page.sent_receive (p : Page ρ) (n : ℕ) (answer : Option (Data ρ)) :
    (p.receive n answer).sent = p.sent := by
  cases answer with
  | none => rfl
  | some data => rfl

/-- A body that is put together is one from before, or that of the answer. -/
theorem Page.mem_rendering_receive (p : Page ρ) (n : ℕ) (data : Data ρ)
    (rows : List (ShownRow ρ)) :
    rows ∈ (p.receive n (some data)).rendering ↔ rows ∈ p.rendering ∨
      data.items ≠ [] ∧ rows = data.items.map (ShownRow.mk ⟨p.asked n, data.collection⟩) := by
  simp only [Page.receive, Page.render]
  split
  · next hempty => simp [List.isEmpty_iff.mp hempty]
  · next hitems =>
    have hne : data.items ≠ [] := fun hnil => hitems (List.isEmpty_iff.mpr hnil)
    simp [hne]

/-- **An answer leaves the page safe exactly if it fits what stays behind.** -/
theorem safe_receive_iff (p : Page ρ) (n : ℕ) (answer : Option (Data ρ)) :
    (p.receive n answer).Safe ↔ p.FitsAnswer n answer := by
  cases answer with
  | none =>
    have hplace : (p.receive n none).place = ⟨p.place.adapter, none⟩ := rfl
    rw [safe_iff_fits (by simp [hplace]), hplace]
    exact fits_congr rfl rfl rfl
  | some data =>
    have hplace : (p.receive n (some data)).place = ⟨p.place.adapter, data.collection⟩ := rfl
    rw [safe_iff_fits (fun _ => ⟨rfl, rfl⟩), hplace]
    constructor
    · intro hfits
      refine ⟨⟨hfits.popover, hfits.dialog, fun hsome rows hrows => ?_⟩, fun hsome hitems => ?_⟩
      · exact hfits.rendering hsome rows ((p.mem_rendering_receive n data rows).mpr (Or.inl hrows))
      · obtain ⟨item, hitem⟩ := List.exists_mem_of_ne_nil _ hitems
        have hrow := hfits.rendering hsome _
          ((p.mem_rendering_receive n data _).mpr (Or.inr ⟨hitems, rfl⟩)) _
          (List.mem_map_of_mem hitem)
        exact congrArg Place.adapter hrow
    · rintro ⟨hfits, hadapter⟩
      refine ⟨hfits.popover, hfits.dialog, fun hsome rows hrows row hrow => ?_⟩
      rcases (p.mem_rendering_receive n data rows).mp hrows with hold | ⟨hitems, rfl⟩
      · exact hfits.rendering hsome rows hold row hrow
      · obtain ⟨item, -, rfl⟩ := List.mem_map.mp hrow
        rw [hadapter hsome hitems]

/-! ### Whole runs -/

/-- **One step leaves the page safe exactly if it is calm.** -/
theorem safe_step_iff (hp : p.Safe) (a : Action ρ) : (step p a).Safe ↔ Calm p a := by
  cases a with
  | arrive n answer =>
    simp only [step]
    split
    · next hn =>
      exact (safe_receive_iff p n answer).trans ⟨fun hfits _ => hfits, fun hcalm => hcalm hn⟩
    · next hn => exact iff_of_true hp fun h => absurd h hn
  | press a =>
    cases a with
    | arrive n answer => exact iff_of_true hp trivial
    | select adapter collection => exact safe_select_iff p adapter collection
    | _ => exact iff_of_true (hp.press (by simp) (by simp)) trivial
  | hand h => exact iff_of_true (hp.hand h) trivial

/-- No step but one at the popover or the dialog sends a command. -/
theorem Page.RightPlace.step (hright : p.RightPlace) (hp : p.Safe) (a : Action ρ) :
    (step p a).RightPlace := by
  cases a with
  | arrive n answer =>
    simp only [Editing.step]
    split
    · rw [Page.RightPlace, Page.sent_receive]
      exact hright
    · exact hright
  | press a =>
    have hpress : ∀ a, (p.press a).RightPlace := by
      intro a
      rw [Page.RightPlace, Page.sent_press]
      exact hright
    cases a with
    | arrive n answer => exact hright
    | _ => exact hpress _
  | hand h => exact hright.hand hp h

/-- **The page is secure exactly as long as every answer and every click leaves nothing of another
place behind.** -/
theorem secure_iff (actions : List (Action ρ)) :
    Secure actions ↔ Along (total step) Calm start actions := by
  have hstart : (start : Page ρ).RightPlace := by simp [Page.RightPlace, start]
  have hsecure : Secure actions ↔
      Along (total step) (fun p a => (step p a).Guarded) start actions :=
    (along_iff_prefixes (safe_start.guarded hstart)).symm
  rw [hsecure]
  refine along_iff (I := fun p => p.RightPlace ∧ p.Safe)
    (fun p a _ t _ hG ht => Option.some.inj ht ▸ (guarded_iff _).mp hG)
    (fun p a _ hI => ?_) ⟨hstart, safe_start⟩
  rw [guarded_iff, safe_step_iff hI.2]
  exact and_iff_right (hI.1.step hI.2 a)

/-- An order is marked and the dialog opened. -/
def dialogOverOrder : List (Action String) :=
  [.press (.select (some "mysql") (some "orders")), .arrive 0 (some ⟨some "orders", ["7"]⟩),
    .hand (.drain 0), .hand (.click 0), .hand .deleteItem]

/-- Then the items are selected, and shown. -/
def dialogOverItems : List (Action String) :=
  dialogOverOrder ++
    [.press (.select (some "mysql") (some "items")), .arrive 1 (some ⟨some "items", ["7"]⟩)]

/-- The dialog would now delete the item instead. -/
theorem not_secure_dialogOverItems : ¬ Secure dialogOverItems := by
  intro h
  have hsent : ⟨.delete, ⟨some "mysql", some "items"⟩, ⟨⟨some "mysql", some "orders"⟩, "7"⟩⟩ ∈
      ([Hand.ok].foldl Page.hand (dialogOverItems.foldl step start)).sent := by decide
  exact absurd ((h dialogOverItems [] (by simp)).place_eq [.ok] hsent) (by decide)

/-- Or the users of another adapter are selected, and not yet shown. -/
def dialogOverUsers : List (Action String) :=
  dialogOverOrder ++ [.press (.select (some "mongodb") (some "users"))]

/-- The dialog would now look for the order there. -/
theorem not_secure_dialogOverUsers : ¬ Secure dialogOverUsers := by
  intro h
  have hsent : ⟨.delete, ⟨some "mongodb", some "orders"⟩, ⟨⟨some "mysql", some "orders"⟩, "7"⟩⟩ ∈
      ([Hand.ok].foldl Page.hand (dialogOverUsers.foldl step start)).sent := by decide
  exact absurd ((h dialogOverUsers [] (by simp)).place_eq [.ok] hsent) (by decide)

end BkPlatform.Labrador.Editing
