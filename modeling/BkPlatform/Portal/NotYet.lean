import BkPlatform.Portal.Observed

/-!
# Instances that do not exist yet

The three methods that act on a machine first refresh the state and only then ask whether
there is a machine.  A row without a machine has no id, and a list without an id is a list
of the account: if it shows one machine, its state is stored in the row; if it shows none or
several, the method raises.  A pending row that was to be started is not pending any more,
and can not be approved.

## Main definitions

* `Method` — `start`, `stop` and `destroy_vm`.
* `Inert` — the method returns false, sends nothing and leaves the row as it is.
* `NotYet` — the row has no machine, and its deployment job is not finished.
* `Harmless` — the condition on the row and the answers.

## Main results

* `inert_iff` — **the methods are inert in exactly the harmless cases.**
-/

namespace BkPlatform.Portal

open Eff RubyString

/-! ### The methods -/

/-- The methods that act on the machine. -/
inductive Method
  | start
  | stop (forced : Bool)
  | destroyVm
  deriving DecidableEq, Repr

/-- What the method does. -/
def Method.run : Method → Action Bool
  | .start => Portal.start
  | .stop forced => Portal.stop forced
  | .destroyVm => Portal.destroyVm

/-! ### The property -/

/-- It has returned false, sent nothing and left the row as it was. -/
structure Idle (w : World) (out : Except Raised Bool × World) : Prop where
  refused : out.1 = .ok false
  row : out.2.row = w.row
  silent : commandsSent out.2.trace = commandsSent w.trace

/-- **The method is inert.** -/
def Inert (w : World) (m : Method) : Prop := Idle w (run m.run w)

/-- There is no machine yet: the row has no id, and if it has an open deployment job, that is
answered as unfinished. -/
structure NotYet (w : World) : Prop where
  noId : w.row.instanceId = none
  unfinished : w.row.asksJob = true → (w.others.headD .nil).leavesOpen = true

/-! ### The condition -/

/-- The state a list leaves in the row, unless it is refused. -/
def Reply.leaves (holds : Bool) (state : String) : Reply → Option String
  | .nil => some state
  | .listVirtualMachines [vm] => if holds then vm.state else none
  | _ => none

/-- The guard of the method turns the row away, whatever its deployment job reads as. -/
def Method.blocks (r : Instance) : Method → Bool
  | .start => !r.is "stopped"
  | .stop _ => !r.is "running"
  | .destroyVm => r.going

/-- The row is destroyed, or the first list fails and the method minds, or the lists leave
the state that was there; a row whose deployment job reads as done is listed twice, and has
to be in a state the guard turns away. -/
def Harmless (w : World) (m : Method) : Prop :=
  w.row.is "destroyed" = true ∨ (m ≠ .start ∧ w.answer = .nil) ∨
    m ≠ .stop true ∧ ∃ s, w.answer.leaves w.holds w.row.state = some s ∧
      if w.row.jobCreatedId.any toBool && !(w.withState s).row.going then
        (w.replies.tail.headD .nil).leaves w.holds s = some w.row.state ∧ m.blocks w.row = true
      else s = w.row.state

/-! ### The guards -/

/-- The guard of the method. -/
def Method.guard : Method → Action Bool
  | .start => canStart
  | .stop _ => canStop
  | .destroyVm => canDestroy

/-- The command of the method, an unforced one. -/
def Method.send : Method → Action Bool
  | .start =>
    sendCommand (fun r => .startVirtualMachine r.instanceId) .start false "starting"
      (some .vmStart)
  | .stop _ =>
    sendCommand (fun r => .stopVirtualMachine r.instanceId false) .stop false "stopping"
      (some .vmStop)
  | .destroyVm =>
    sendCommand (fun r => .destroyVirtualMachine r.instanceId) .destroy false "Destroying"
      (some .vmDestroy)

/-- The method from the guard on. -/
def Method.rest (m : Method) : Action Bool := do
  let can ← m.guard
  if can then m.send else pure false

section Guards

variable {w w₁ : World} {m : Method}

theorem commandsSent_query {req : Request} (hreq : req.command = none) :
    commandsSent (w.afterCall req).trace = commandsSent w.trace := by
  simp [commandsSent, Event.sent, hreq]

/-- A command that is sent is counted. -/
theorem commandsSent_sendCommand {req : Instance → Request} {cmd : Command} {forced : Bool}
    {state : String} {later : Option Worker} (hreq : ∀ r, (req r).command = some cmd) :
    commandsSent (run (sendCommand req cmd forced state later) w₁).2.trace ≠
      commandsSent w₁.trace := by
  intro heq
  obtain ⟨after, hafter⟩ := trace_sendCommand req cmd forced state later w₁
  rw [hafter] at heq
  simp [commandsSent, Event.sent, hreq] at heq

theorem not_idle_send (hsent : commandsSent w₁.trace = commandsSent w.trace) :
    ¬ Idle w (run m.send w₁) := by
  intro h
  have hsilent := h.silent
  rw [← hsent] at hsilent
  cases m with
  | start => exact commandsSent_sendCommand (fun _ => rfl) hsilent
  | stop forced => exact commandsSent_sendCommand (fun _ => rfl) hsilent
  | destroyVm => exact commandsSent_sendCommand (fun _ => rfl) hsilent

/-- The end of `isCreated`, where it gets as far as that. -/
theorem run_isCreated_known (hknown : w.row.jobCreatedId.any toBool = true)
    (hgoing : w.row.going = false) :
    run isCreated w = match run updateState w with
      | (.ok _, w₁) => (.ok (!w₁.row.going), w₁)
      | (.error e, w₁) => (.error e, w₁) := by
  rw [(Done.known hknown).run, run_stillThere, hgoing]
  exact if_neg (by decide)

/-- Behind it the guard looks at the state. -/
theorem run_guard_known (hknown : w.row.jobCreatedId.any toBool = true)
    (hgoing : w.row.going = false) :
    run m.guard w = match run updateState w with
      | (.ok _, w₁) => (.ok (!m.blocks w₁.row), w₁)
      | (.error e, w₁) => (.error e, w₁) := by
  have hcreated := run_isCreated_known hknown hgoing
  have hcan : ∀ state, Lasting state → run (stateGuard state) w = match run updateState w with
      | (.ok _, w₁) => (.ok (w₁.row.is state), w₁)
      | (.error e, w₁) => (.error e, w₁) := by
    intro state hstate
    unfold stateGuard
    rcases hrun : run updateState w with ⟨e | o, w₁⟩
    · rw [hrun] at hcreated
      exact run_bind_error hcreated
    · rw [hrun] at hcreated
      rw [run_bind_ok hcreated, run_bind_ok (run_self w₁)]
      cases his : w₁.row.is state with
      | false => simp [his]
      | true => simp [his, hstate.going his]
  cases m with
  | start =>
    simp only [Method.blocks, Bool.not_not]
    exact hcan "stopped" lasting_stopped
  | stop forced =>
    simp only [Method.blocks, Bool.not_not]
    exact hcan "running" lasting_running
  | destroyVm =>
    show run canDestroy w = _
    unfold canDestroy
    rw [run_bind_ok (run_self w)]
    change run (if w.row.going = true then _ else _) w = _
    rw [hgoing, if_neg (by decide), hcreated]
    rfl

/-- Short of it the guard turns the row away, and nothing has changed. -/
theorem run_guard_unknown (hunknown : (w.row.jobCreatedId.any toBool && !w.row.going) = false)
    (hopen : w.row.asksJob = true → w.answer.leavesOpen = true) :
    ∃ w₁, run m.guard w = (.ok false, w₁) ∧ w₁.row = w.row ∧
      commandsSent w₁.trace = commandsSent w.trace := by
  have hcreated : ∃ w₁, run isCreated w = (.ok false, w₁) ∧ w₁.row = w.row ∧
      commandsSent w₁.trace = commandsSent w.trace := by
    rw [run_isCreated]
    cases hjob : w.row.jobCreatedId with
    | none => exact ⟨w, rfl, rfl, rfl⟩
    | some job =>
      cases htrue : toBool job with
      | true =>
        simp only [hjob, Option.any_some, htrue, Bool.true_and, Bool.not_eq_false'] at hunknown
        refine ⟨w, ?_, rfl, rfl⟩
        simp only [htrue, if_true, run_stillThere, hunknown]
      | false =>
        have hleaves : w.answer.leavesOpen = true := hopen (by simp [Instance.asksJob, hjob, htrue])
        refine ⟨w.afterCall (.queryAsyncJobResult (some job)), ?_, rfl, commandsSent_query rfl⟩
        simp only [htrue, Bool.false_eq_true, if_false, run_checkCreated]
        rcases hanswer : w.answer with _ | _ | _ | ⟨s | n | _, vm⟩ | _
        case nil => rfl
        case queryAsyncJobResult.str =>
          obtain rfl : s = "0" := by simpa [hanswer, Reply.leavesOpen] using hleaves
          rfl
        all_goals simp [hanswer, Reply.leavesOpen] at hleaves
  obtain ⟨w₁, hrun, hrow, hsent⟩ := hcreated
  have hcan : ∀ state, run (stateGuard state) w = (.ok false, w₁) := by
    intro state
    unfold stateGuard
    rw [run_bind_ok hrun, run_bind_ok (run_self w₁)]
    rfl
  cases m with
  | start => exact ⟨w₁, hcan "stopped", hrow, hsent⟩
  | stop forced => exact ⟨w₁, hcan "running", hrow, hsent⟩
  | destroyVm =>
    show ∃ w₁, run canDestroy w = _ ∧ _
    unfold canDestroy
    rw [run_bind_ok (run_self w)]
    change ∃ w₁, run (if w.row.going = true then _ else _) w = _ ∧ _
    cases hgoing : w.row.going with
    | true => exact ⟨w, rfl, rfl, rfl⟩
    | false => exact ⟨w₁, hrun, hrow, hsent⟩

end Guards

/-! ### The rest of the method -/

section Rest

variable {w w₁ : World} {m : Method} {s : String}

/-- Only the state can have changed. -/
theorem row_withState_iff : (w.withState s).row = w.row ↔ s = w.row.state := by
  constructor
  · exact fun h => congrArg Instance.state h
  · rintro rfl
    rfl

/-- A guard that lets the row through has a command sent, and one that does not leaves the
row as it finds it. -/
theorem idle_guarded_iff {w₂ : World} (hguard : run m.guard w₁ = (.ok (!m.blocks w₂.row), w₂))
    (hrow : w₂.row = (w.withState s).row) (hsent : commandsSent w₂.trace = commandsSent w.trace) :
    Idle w (run m.rest w₁) ↔ s = w.row.state ∧ m.blocks w.row = true := by
  have hrest : run m.rest w₁ = run (if !m.blocks w₂.row then m.send else pure false) w₂ :=
    run_bind_ok hguard
  rw [hrest]
  cases hblocks : m.blocks w₂.row with
  | true =>
    constructor
    · intro h
      have hsame : (w.withState s).row = w.row := hrow.symm.trans h.row
      refine ⟨row_withState_iff.mp hsame, ?_⟩
      rw [← hsame, ← hrow]
      exact hblocks
    · intro h
      exact ⟨rfl, hrow.trans (row_withState_iff.mpr h.1), hsent⟩
  | false =>
    refine iff_of_false (not_idle_send hsent) fun h => ?_
    rw [hrow, row_withState_iff.mpr h.1, h.2] at hblocks
    exact absurd hblocks (by decide)

/-- An answer after which a refresh raises leaves no state. -/
theorem leaves_of_refused (hanswer : w.answer ≠ .nil)
    (hrefused : ∀ vm s, w.answer = .listVirtualMachines [vm] → vm.state = some s →
      w.holds = false) (state : String) : w.answer.leaves w.holds state = none := by
  rcases hreply : w.answer with _ | ⟨_ | ⟨vm, _ | ⟨vm', rest⟩⟩⟩ | _ | _ | _
  case nil => exact absurd hreply hanswer
  case listVirtualMachines.cons.nil =>
    cases hholds : w.holds with
    | false => rfl
    | true =>
      simp only [Reply.leaves, if_true]
      by_contra hsome
      obtain ⟨st, hst⟩ := Option.ne_none_iff_exists'.mp hsome
      rw [hrefused vm st hreply hst] at hholds
      exact absurd hholds (by decide)
  all_goals rfl

/-- **From the guard on**, with another state in the row. -/
theorem idle_rest_iff (hrow : w₁.row = (w.withState s).row)
    (hsent : commandsSent w₁.trace = commandsSent w.trace)
    (hopen : w.row.asksJob = true → w₁.answer.leavesOpen = true) :
    Idle w (run m.rest w₁) ↔
      if w.row.jobCreatedId.any toBool && !(w.withState s).row.going then
        w₁.answer.leaves w₁.holds s = some w.row.state ∧ m.blocks w.row = true
      else s = w.row.state := by
  have hjob : w₁.row.jobCreatedId = w.row.jobCreatedId := by rw [hrow]; rfl
  by_cases hlisted : (w.row.jobCreatedId.any toBool && !(w.withState s).row.going) = true
  · rw [if_pos hlisted]
    simp only [Bool.and_eq_true, Bool.not_eq_true', ← hrow, ← hjob] at hlisted
    have hguard := @run_guard_known w₁ m hlisted.1 hlisted.2
    have hcases := refreshes_updateState w₁
    generalize run updateState w₁ = outcome at hguard hcases
    cases hcases with
    | gone hgone => simp [Instance.going, hgone] at hlisted
    | unanswered hlive hanswer =>
      rw [hanswer]
      have hidle := @idle_guarded_iff w w₁ m s _ hguard hrow
        ((commandsSent_query rfl).trans hsent)
      simpa [Reply.leaves] using hidle
    | @listed vm s' hlive hanswer hs hholds =>
      rw [hanswer]
      have hrow' : ((w₁.afterCall (.listVirtualMachines w₁.row.instanceId)).withState s').row =
          (w.withState s').row := by
        show { w₁.row with state := s' } = _
        rw [hrow]
        rfl
      have hidle := @idle_guarded_iff w w₁ m s' _ hguard hrow'
        ((commandsSent_query rfl).trans hsent)
      simpa [Reply.leaves, hholds, hs] using hidle
    | @raises e hlive hanswer hrefused =>
      rw [leaves_of_refused hanswer hrefused]
      have hrest : (run m.rest w₁).1 = .error e := by rw [Method.rest, run_bind_error hguard]
      refine iff_of_false (fun h => ?_) (by simp)
      have hfalse := h.refused
      rw [hrest] at hfalse
      simp at hfalse
  · rw [if_neg hlisted]
    rw [← hrow, ← hjob] at hlisted
    have hopen₁ : w₁.row.asksJob = true → w₁.answer.leavesOpen = true := by
      rw [Instance.asksJob, hjob]
      exact hopen
    obtain ⟨w₂, hguard, hrow₂, hsent₂⟩ :=
      @run_guard_unknown w₁ m (Bool.not_eq_true _ ▸ hlisted) hopen₁
    have hrest : run m.rest w₁ = (.ok false, w₂) := run_bind_ok hguard
    rw [hrest, ← row_withState_iff, ← hrow, ← hrow₂]
    exact ⟨fun h => h.row, fun h => ⟨rfl, h, hsent₂.trans hsent⟩⟩

end Rest

/-! ### The whole method -/

section Whole

variable {w w₁ : World} {m : Method} {s : String}

/-- The first refresh of the methods. -/
theorem run_method_error {e : Raised} (hrun : run updateState w = (.error e, w₁)) :
    run m.run w = (.error e, w₁) := by
  cases m with
  | start => exact run_bind_error hrun
  | stop forced => exact run_bind_error hrun
  | destroyVm => exact run_bind_error hrun

/-- A failed one ends all of them but `start`. -/
theorem run_method_none (hrun : run updateState w = (.ok none, w₁)) :
    run m.run w = if m = .start then run m.rest w₁ else (.ok false, w₁) := by
  cases m with
  | start => exact run_bind_ok hrun
  | stop forced => exact run_bind_ok hrun
  | destroyVm => exact run_bind_ok hrun

theorem run_method_some (hrun : run updateState w = (.ok (some s), w₁)) (hm : m ≠ .stop true) :
    run m.run w = run m.rest w₁ := by
  cases m with
  | start => exact run_bind_ok hrun
  | stop forced =>
    cases forced with
    | true => exact absurd rfl hm
    | false => exact run_bind_ok hrun
  | destroyVm => exact run_bind_ok hrun

/-- A forced stop that has a list sends its command. -/
theorem not_inert_forced (hrun : run updateState w = (.ok (some s), w₁))
    (hsent : commandsSent w₁.trace = commandsSent w.trace) : ¬ Inert w (.stop true) := by
  intro h
  have hstop : run (Method.stop true).run w =
      run (sendCommand (fun r => .stopVirtualMachine r.instanceId true) .stop true "stopped" none)
        w₁ := run_bind_ok hrun
  have hsilent := h.silent
  rw [hstop, ← hsent] at hsilent
  exact commandsSent_sendCommand (fun _ => rfl) hsilent

theorem harmless_iff_of_leaves (hlive : w.row.is "destroyed" = false)
    (hleaves : w.answer.leaves w.holds w.row.state = some s) :
    Harmless w m ↔ (m ≠ .start ∧ w.answer = .nil) ∨ m ≠ .stop true ∧
      if w.row.jobCreatedId.any toBool && !(w.withState s).row.going then
        (w.replies.tail.headD .nil).leaves w.holds s = some w.row.state ∧ m.blocks w.row = true
      else s = w.row.state := by
  unfold Harmless
  rw [hlive, hleaves]
  constructor
  · intro h
    rcases h with hgone | hfailed | ⟨hm, s', hs', hrest⟩
    · exact absurd hgone (by decide)
    · exact Or.inl hfailed
    · obtain rfl := Option.some.inj hs'
      exact Or.inr ⟨hm, hrest⟩
  · intro h
    rcases h with hfailed | ⟨hm, hrest⟩
    · exact Or.inr (Or.inl hfailed)
    · exact Or.inr (Or.inr ⟨hm, s, rfl, hrest⟩)

end Whole

/-- **The methods are inert in exactly the harmless cases**: for every row without a
machine, and whatever the lists show. -/
theorem inert_iff {w : World} (h : NotYet w) (m : Method) : Inert w m ↔ Harmless w m := by
  unfold Inert
  have hcases := refreshes_updateState w
  generalize hrun : run updateState w = outcome at hcases
  have hsame : w.row = (w.withState w.row.state).row := rfl
  cases hcases with
  | gone hgone =>
    refine iff_of_true ?_ (Or.inl hgone)
    rw [run_method_none hrun]
    split
    · have hopen : w.row.asksJob = true → w.answer.leavesOpen = true := by
        have hunfinished := h.unfinished
        rwa [World.others, if_pos hgone] at hunfinished
      rw [idle_rest_iff hsame rfl hopen]
      have hgoing : (w.withState w.row.state).row.going = true := by
        rw [← hsame]
        simp [Instance.going, hgone]
      simp [hgoing]
    · exact ⟨rfl, rfl, rfl⟩
  | unanswered hlive hanswer =>
    have hunfinished := h.unfinished
    rw [World.others, if_neg (by simp [hlive])] at hunfinished
    rw [run_method_none hrun, harmless_iff_of_leaves hlive (by rw [hanswer]; rfl)]
    by_cases hm : m = .start
    · subst hm
      have hrest := @idle_rest_iff w (w.afterCall (.listVirtualMachines w.row.instanceId)) .start
        w.row.state hsame (commandsSent_query rfl) hunfinished
      rw [if_pos rfl, hrest]
      simp only [ne_eq, not_true_eq_false, false_and, false_or, reduceCtorEq, not_false_eq_true,
        true_and]
      exact Iff.rfl
    · rw [if_neg hm]
      exact iff_of_true ⟨rfl, rfl, commandsSent_query rfl⟩ (Or.inl ⟨hm, hanswer⟩)
  | @listed vm s hlive hanswer hs hholds =>
    have hunfinished := h.unfinished
    rw [World.others, if_neg (by simp [hlive])] at hunfinished
    have hleaves : w.answer.leaves w.holds w.row.state = some s := by
      simp [hanswer, Reply.leaves, hholds, hs]
    rw [harmless_iff_of_leaves hlive hleaves]
    by_cases hm : m = .stop true
    · subst hm
      exact iff_of_false (not_inert_forced hrun (commandsSent_query rfl)) (by simp [hanswer])
    · rw [run_method_some hrun hm]
      have hrest := @idle_rest_iff w
        ((w.afterCall (.listVirtualMachines w.row.instanceId)).withState s) m s rfl
        (commandsSent_query rfl) hunfinished
      rw [hrest, hanswer]
      simp only [reduceCtorEq, and_false, false_or, ne_eq, hm, not_false_eq_true, true_and]
      exact Iff.rfl
  | raises hlive hanswer hrefused =>
    rw [run_method_error hrun]
    refine iff_of_false (fun hidle => ?_) fun hharmless => ?_
    · exact absurd hidle.refused (by simp)
    · rcases hharmless with hgone | ⟨-, hnil⟩ | ⟨-, s, hs, -⟩
      · simp [hlive] at hgone
      · exact hanswer hnil
      · rw [leaves_of_refused hanswer hrefused] at hs
        simp at hs

/-- A pending row, when the list fails. -/
theorem inert_unanswered : Inert pendingWorld .destroyVm :=
  (inert_iff ⟨rfl, by decide⟩ .destroyVm).mpr (Or.inr (Or.inl ⟨by decide, rfl⟩))

/-- The only machine of the account makes a pending row a running one, and no machine or
two of them make the method raise. -/
theorem not_inert_pending :
    ¬ Inert { pendingWorld with replies := [listing "Running"] } .start ∧
      ¬ Inert { pendingWorld with replies := [.listVirtualMachines []] } .start ∧
      (run deploy (run start { pendingWorld with replies := [listing "Running"] }).2).1 =
        .ok false := by
  refine ⟨fun h => absurd h.row (by decide), fun h => absurd h.refused (by decide), ?_⟩
  decide

end BkPlatform.Portal
