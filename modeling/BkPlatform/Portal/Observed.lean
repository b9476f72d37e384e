import BkPlatform.Lib.Log
import BkPlatform.Portal.Binding
import BkPlatform.Portal.Commands
import BkPlatform.Portal.Destroyed
import BkPlatform.Portal.Pending

/-!
# Commands and observations

`start`, `stop` and `destroy_vm` refresh the state before they send their command, and
`isCreated` refreshes it once more.  `stop` and `destroy_vm` give up if the first refresh
fails; `start` drops its outcome, and `isCreated` drops that of the second one.  So the
state a command is sent on need not be one the cloud has listed in the same call: `start`
goes by the stored one, and after a finished deployment job both `start` and `stop` go by
the state in its result.

## Main definitions

* `Op.demands` — the command of a method, and the state it has to see.
* `Fresh` — in one call, the command follows a list that shows it.
* `Stale` — the rows and answers for which it does not.

## Main results

* `fresh_iff` — **a command follows a fresh list, except in the stale cases.**
-/

namespace BkPlatform.Portal

open Eff RubyString

/-! ### The property -/

/-- The command of a method, and what its row must have been listed as. -/
def Op.demands : Op → Option (Command × (String → Bool))
  | .start => some (.start, fun s => s == "stopped")
  | .stop false => some (.stop, fun s => s == "running")
  | .destroyVm => some (.destroy, fun _ => true)
  | _ => none

/-- A list of the machine, in such a state. -/
def Event.reports (p : String → Bool) : Event → Bool
  | .call (.listVirtualMachines _) reply => reply.state.any p
  | _ => false

/-- The command is sent only after such a list. -/
def Follows (cmd : Command) (p : String → Bool) (before : List Event) (e : Event) : Prop :=
  e.sent = some cmd → before.any (Event.reports p) = true

instance (cmd : Command) (p : String → Bool) (before : List Event) (e : Event) :
    Decidable (Follows cmd p before e) := by
  unfold Follows
  infer_instance

/-- The log of one call. -/
def World.log (w : World) (op : Op) : List Event := (run op.run { w with trace := [] }).2.trace

/-- **The command of a call follows a list received in the same call.** -/
def Fresh (w : World) (op : Op) : Prop :=
  ∀ cmd p, op.demands = some (cmd, p) → Log.Always (Follows cmd p) (w.log op)

/-! ### The condition -/

/-- The state of the machine of a finished deployment job. -/
def Reply.createdState : Reply → Option String
  | .queryAsyncJobResult (.str s) (some vm) =>
    if toBool s && vm.created.isSome then vm.state.map downcase else none
  | _ => none

/-- The answers after the first refresh, which a destroyed row does without. -/
def World.others (w : World) : List Reply :=
  if w.row.is "destroyed" then w.replies else w.replies.tail

/-- The row is in that state, its job reads as done, and both refreshes fail. -/
def World.fromRow (w : World) (state : String) : Prop :=
  w.row.jobCreatedId.any toBool = true ∧ w.row.is state = true ∧
    w.answer = .nil ∧ w.replies.tail.headD .nil = .nil

/-- The deployment job turns out to be finished with its machine in that state, and the
refresh after it fails. -/
def World.fromJob (w : World) (state : String) : Prop :=
  w.holds = true ∧ w.row.asksJob = true ∧
    (w.others.headD .nil).createdState = some state ∧ w.others.tail.headD .nil = .nil

/-- The command is sent on a state that no list of the call has shown. -/
def Stale (w : World) : Op → Prop
  | .start =>
    w.fromRow "stopped" ∨ w.fromJob "stopped" ∧
      (w.row.is "destroyed" = true ∨ w.answer = .nil ∨ ∃ s ∈ w.answer.state, s ≠ "stopped")
  | .stop false =>
    w.fromJob "running" ∧ w.row.is "destroyed" = false ∧ ∃ s ∈ w.answer.state, s ≠ "running"
  | _ => False

/-! ### Before and after the command -/

section Logs

variable {cmd : Command} {p : String → Bool} {w : World}

/-- Without a command there is nothing to ask for. -/
theorem always_of_quiet (hquiet : Sends (fun _ => False) w) :
    Log.Always (Follows cmd p) w.trace := by
  intro before e after htrace hsent
  have hmem : e ∈ w.trace := by
    rw [htrace]
    simp
  exact (hquiet e hmem cmd (by rw [hsent]; rfl)).elim

/-- Once the list is there, whatever follows is fine. -/
theorem kept_reported : Kept fun w =>
    w.trace.any (Event.reports p) = true ∧ Log.Always (Follows cmd p) w.trace where
  calls := by
    intro w req hw
    rw [World.trace_afterCall, List.any_append, hw.1, Log.always_snoc]
    exact ⟨rfl, hw.2, fun _ => hw.1⟩
  writes := fun _ _ hw => hw
  enqueues := fun _ _ hw => hw
  stores := by
    intro w cmd' forced jobid s _ hw
    show ((w.trace ++ [_]).any _ = true) ∧ Log.Always _ (w.trace ++ [_])
    rw [List.any_append, hw.1, Log.always_snoc]
    exact ⟨rfl, hw.2, fun _ => hw.1⟩
  checks := by
    intro w job _ _ hw
    have hasked :
        (w.afterCall (.queryAsyncJobResult (some job))).trace.any (Event.reports p) = true ∧
          Log.Always (Follows cmd p) (w.afterCall (.queryAsyncJobResult (some job))).trace := by
      rw [World.trace_afterCall, List.any_append, hw.1, Log.always_snoc]
      exact ⟨rfl, hw.2, fun _ => hw.1⟩
    have hcases := asks_checkCreated job w
    generalize run (checkCreated job) w = outcome at hcases
    cases hcases with
    | finished hanswer hdone hrow hholds => exact hasked
    | unfinished => exact hasked
    | failed hholds => exact hasked
    | raises => exact hasked

/-- A command is logged in any case. -/
theorem trace_sendCommand (req : Instance → Request) (cmd : Command) (forced : Bool)
    (state : String) (later : Option Worker) (w : World) :
    ∃ after, (run (sendCommand req cmd forced state later) w).2.trace =
      w.trace ++ .call (req w.row) w.answer :: after := by
  have hcall : (w.afterCall (req w.row)).trace = w.trace ++ .call (req w.row) w.answer :: [] := rfl
  rw [run_sendCommand]
  cases hanswer : w.answer with
  | nil => exact ⟨[], by simpa only [hanswer] using hcall⟩
  | listVirtualMachines vms => exact ⟨[], by simpa only [hanswer] using hcall⟩
  | queryAsyncJobResult jobstatus vm => exact ⟨[], by simpa only [hanswer] using hcall⟩
  | malformed => exact ⟨[], by simpa only [hanswer] using hcall⟩
  | job cmd' jobid =>
    by_cases hsame : cmd' = cmd
    · by_cases hholds : w.holds = true
      · refine ⟨[.stored cmd forced jobid], ?_⟩
        simp only [hsame, hholds, if_true, World.trace_later]
        show (w.trace ++ [.call (req w.row) w.answer]) ++ [_] = _
        rw [List.append_assoc, hanswer, hsame]
        rfl
      · refine ⟨[], ?_⟩
        simp only [hsame, hholds, if_true, Bool.false_eq_true, if_false]
        rw [hcall, hanswer, hsame]
    · refine ⟨[], ?_⟩
      simp only [hsame, if_false]
      rw [hcall, hanswer]

/-- A command that no list has come before. -/
theorem not_always_sendCommand {req : Instance → Request} {forced : Bool} {state : String}
    {later : Option Worker} (hreq : ∀ r, (req r).command = some cmd)
    (hunseen : w.trace.any (Event.reports p) = false) :
    ¬ Log.Always (Follows cmd p) (run (sendCommand req cmd forced state later) w).2.trace := by
  intro h
  obtain ⟨after, hafter⟩ := trace_sendCommand req cmd forced state later w
  have hseen := h w.trace (.call (req w.row) w.answer) after hafter (hreq w.row)
  rw [hunseen] at hseen
  exact absurd hseen (by decide)

end Logs

/-! ### The second refresh -/

section Refresh

variable {w w₁ w₂ : World} {state : String}

/-- The row is filled in from the result of its deployment job. -/
def World.filled (w : World) (job : String) (row : Instance) : World :=
  { w.afterCall (.queryAsyncJobResult (some job)) with row := row }

/-- `isCreated` comes to its end: the deployment job reads as done, or has just turned out
to be. -/
inductive Done (w : World) : World → Prop
  | known (hknown : w.row.jobCreatedId.any toBool = true) : Done w w
  | finished {job s : String} {vm : Vm} {row : Instance} (hjob : w.row.jobCreatedId = some job)
      (hopen : toBool job = false) (hanswer : w.answer = .queryAsyncJobResult (.str s) (some vm))
      (hdone : toBool s = true) (hdate : vm.created.isSome = true)
      (hrow : createdRow vm w.row = some row) (hholds : w.holds = true) :
      Done w (w.filled job row)

theorem Done.run (h : Done w w₁) : run isCreated w = run stillThere w₁ := by
  cases h with
  | known hknown =>
    obtain ⟨job, hjob, htrue⟩ := (Option.any_eq_true _ _).mp hknown
    rw [run_isCreated, hjob]
    simp only [htrue, if_true]
  | @finished job s vm row hjob hopen hanswer hdone hdate hrow hholds =>
    have hchecked : Eff.run (checkCreated job) w =
        (.ok true, w.filled job row) := by
      rw [run_checkCreated, hanswer]
      simp only [hdone, Bool.true_eq_false, if_false, hrow, hholds, if_true,
        Option.isNone_eq_false_iff.mpr hdate, Bool.false_eq_true]
      rfl
    rw [run_isCreated, hjob]
    simp only [hopen, Bool.false_eq_true, if_false, hchecked, if_true]

theorem done_of_true (h : run isCreated w = (.ok true, w₂)) :
    ∃ w₁, Done w w₁ ∧ run stillThere w₁ = (.ok true, w₂) := by
  rw [run_isCreated] at h
  cases hjob : w.row.jobCreatedId with
  | none => simp [hjob] at h
  | some job =>
    rw [hjob] at h
    cases hopen : toBool job with
    | true =>
      simp only [hopen, if_true] at h
      exact ⟨w, .known (by rw [hjob]; exact hopen), h⟩
    | false =>
      simp only [hopen, Bool.false_eq_true, if_false] at h
      have hcases := asks_checkCreated job w
      rcases hrun : run (checkCreated job) w with ⟨e | finished, w₁⟩
      · rw [hrun] at h
        simp at h
      · rw [hrun] at h hcases
        cases finished with
        | false => simp at h
        | true =>
          refine ⟨w₁, ?_, h⟩
          cases hcases with
          | @finished s vm row hanswer hdone hrow hholds =>
            refine .finished hjob hopen hanswer hdone ?_ hrow hholds
            -- without a date the answer would have been refused
            cases hdate : vm.created.isSome with
            | true => rfl
            | false =>
              rw [run_checkCreated, hanswer] at hrun
              simp [hdone, Option.isSome_eq_false_iff.mp hdate] at hrun

/-- The refresh at the end of `isCreated` has failed, or has listed the machine. -/
theorem stillThere_true (h : run stillThere w = (.ok true, w₂)) :
    w.row.going = false ∧
      (w.answer = .nil ∧ w₂ = w.afterCall (.listVirtualMachines w.row.instanceId) ∨
        ∃ vm s, w.answer = .listVirtualMachines [vm] ∧ vm.state = some s ∧
          w₂ = (w.afterCall (.listVirtualMachines w.row.instanceId)).withState s) := by
  rw [run_stillThere] at h
  cases hgoing : w.row.going with
  | true => simp [hgoing] at h
  | false =>
    refine ⟨rfl, ?_⟩
    simp only [hgoing, Bool.false_eq_true, if_false] at h
    have hcases := refreshes_updateState w
    rcases hrun : run updateState w with ⟨e | o, w₁⟩
    · rw [hrun] at h
      simp at h
    · rw [hrun] at h hcases
      obtain ⟨-, rfl⟩ := Prod.mk.inj h
      cases hcases with
      | gone hgone => simp [Instance.going, hgone] at hgoing
      | unanswered hlive hanswer => exact Or.inl ⟨hanswer, rfl⟩
      | @listed vm s hlive hanswer hs hholds => exact Or.inr ⟨vm, s, hanswer, hs, rfl⟩

/-- It has failed. -/
theorem run_stillThere_unanswered (hgoing : w.row.going = false) (hanswer : w.answer = .nil) :
    run stillThere w = (.ok true, w.afterCall (.listVirtualMachines w.row.instanceId)) := by
  have hlive : w.row.is "destroyed" = false := by
    simp only [Instance.going, Bool.or_eq_false_iff] at hgoing
    exact hgoing.2
  rw [run_stillThere, hgoing, run_updateState, hlive, hanswer]
  simp [hgoing]

/-- The state that `isCreated` leaves behind is not one it has listed: it is the stored one,
or that of a finished deployment job. -/
def Unrefreshed (w : World) (state : String) : Prop :=
  w.row.jobCreatedId.any toBool = true ∧ w.row.is state = true ∧ w.answer = .nil ∨
    w.holds = true ∧ w.row.asksJob = true ∧ w.answer.createdState = some state ∧
      w.replies.tail.headD .nil = .nil

/-- A state that is not one of a machine on its way out, in the letters it is compared in. -/
structure Lasting (state : String) : Prop where
  plain : downcase state = state
  destroying : state ≠ "destroying"
  destroyed : state ≠ "destroyed"

theorem lasting_stopped : Lasting "stopped" := ⟨by decide, by decide, by decide⟩

theorem lasting_running : Lasting "running" := ⟨by decide, by decide, by decide⟩

theorem Lasting.going (h : Lasting state) {r : Instance} (his : r.is state = true) :
    r.going = false := by
  rw [Instance.is_iff, h.plain] at his
  have hdestroying : downcase "destroying" = "destroying" := by decide
  have hdestroyed : downcase "destroyed" = "destroyed" := by decide
  simp [Instance.going, Instance.is, his, hdestroying, hdestroyed, h.destroying, h.destroyed]

theorem Reply.createdState_eq_some {reply : Reply} :
    reply.createdState = some state ↔
      ∃ s vm st, reply = .queryAsyncJobResult (.str s) (some vm) ∧ toBool s = true ∧
        vm.created.isSome = true ∧ vm.state = some st ∧ downcase st = state := by
  constructor
  · intro h
    rcases reply with _ | _ | _ | ⟨s | n | _, vm | vm⟩ | _
    case queryAsyncJobResult.str.some =>
      simp only [Reply.createdState] at h
      by_cases hdone : (toBool s && vm.created.isSome) = true
      · rw [if_pos hdone] at h
        obtain ⟨st, hst, hstate⟩ := Option.map_eq_some_iff.mp h
        exact ⟨s, vm, st, rfl, (Bool.and_eq_true _ _ ▸ hdone).1, (Bool.and_eq_true _ _ ▸ hdone).2,
          hst, hstate⟩
      · rw [if_neg hdone] at h
        simp at h
    all_goals simp [Reply.createdState] at h
  · rintro ⟨s, vm, st, rfl, hdone, hdate, hst, hstate⟩
    simp [Reply.createdState, hdone, hdate, hst, hstate]

/-- A call that fails lists nothing, and neither does one for a job. -/
theorem unreported_of_unanswered {p : String → Bool} (hanswer : w.answer = .nil) (req : Request) :
    (w.afterCall req).trace.any (Event.reports p) = w.trace.any (Event.reports p) := by
  have hnil : Event.reports p (.call req .nil) = false := by cases req <;> rfl
  simp [hanswer, hnil]

theorem unreported_query {p : String → Bool} (job : Option String) :
    (w.afterCall (.queryAsyncJobResult job)).trace.any (Event.reports p) =
      w.trace.any (Event.reports p) := by
  simp [Event.reports]

/-- On such a state `isCreated` says true, and it has listed nothing. -/
theorem Unrefreshed.run (hstate : Lasting state) (h : Unrefreshed w state)
    (p : String → Bool) :
    ∃ w₂, run isCreated w = (.ok true, w₂) ∧ w₂.row.is state = true ∧
      w₂.trace.any (Event.reports p) = w.trace.any (Event.reports p) := by
  rcases h with ⟨hknown, his, hanswer⟩ | ⟨hholds, hasks, hcreated, hnext⟩
  · have hstill := run_stillThere_unanswered (hstate.going his) hanswer
    exact ⟨_, (Done.known hknown).run.trans hstill, his, unreported_of_unanswered hanswer _⟩
  · obtain ⟨job, hjob, hopen⟩ := (Option.any_eq_true _ _).mp hasks
    obtain ⟨s, vm, st, hanswer, hdone, hdate, hst, hdown⟩ := Reply.createdState_eq_some.mp hcreated
    obtain ⟨row, hrow⟩ : ∃ row, createdRow vm w.row = some row := ⟨_, by rw [createdRow, hst]; rfl⟩
    have his : row.is state = true := by
      rw [createdRow, hst] at hrow
      obtain rfl := Option.some.inj hrow
      rw [Instance.is_iff, hstate.plain]
      exact hdown
    have hend := Done.finished hjob (by simpa using hopen) hanswer hdone hdate hrow hholds
    have hlast : (w.filled job row).answer = .nil := hnext
    have hasked : (w.filled job row).trace.any (Event.reports p) =
        w.trace.any (Event.reports p) := unreported_query (some job)
    have hgoing : (w.filled job row).row.going = false := hstate.going his
    have hstill := run_stillThere_unanswered hgoing hlast
    refine ⟨_, hend.run.trans hstill, his, ?_⟩
    rw [unreported_of_unanswered hlast, hasked]

/-- Where `isCreated` leaves that state behind, it has listed it or not. -/
theorem reported_or_unrefreshed (hstate : Lasting state) (h : run isCreated w = (.ok true, w₂))
    (his : w₂.row.is state = true) :
    w₂.trace.any (Event.reports fun s => s == state) = true ∨ Unrefreshed w state := by
  obtain ⟨w₁, hdone, hstill⟩ := done_of_true h
  obtain ⟨hgoing, ⟨hanswer, rfl⟩ | ⟨vm, s, hanswer, hs, rfl⟩⟩ := stillThere_true hstill
  · right
    cases hdone with
    | known hknown => exact Or.inl ⟨hknown, his, hanswer⟩
    | @finished job s vm row hjob hopen hfirst hread hdate hrow hholds =>
      refine Or.inr ⟨hholds, by simp [Instance.asksJob, hjob, hopen], ?_, hanswer⟩
      obtain ⟨st, hst, rfl⟩ := Option.map_eq_some_iff.mp hrow
      rw [Instance.is_iff, hstate.plain] at his
      exact Reply.createdState_eq_some.mpr ⟨s, vm, st, hfirst, hread, hdate, hst, his⟩
  · left
    rw [Instance.is_iff, hstate.plain] at his
    simp only [World.trace_withState, World.trace_afterCall, List.any_append, hanswer]
    simp only [World.withState_state] at his
    simp [Event.reports, Reply.state, hs, his]

end Refresh

/-! ### The methods -/

section Methods

variable {w w₁ : World} {cmd : Command} {state : String}

/-- The polls send nothing. -/
theorem sends_updateState : Keeps (Sends fun _ => False) updateState := by
  have hsteps := Keeps.of_steps (fun _ => after_poll) fun _ _ hdoes hw =>
    sends_does (M := .nothing) (K := True) (C := fun _ => False)
      (fun _ _ _ hsend => False.elim hsend) (fun _ _ => trivial) hw hdoes
  exact hsteps.weaken (fun _ hw => ⟨hw, fun _ => trivial⟩) (fun _ _ hw => hw.1) fun _ hw => hw.1

theorem sends_isCreated : Keeps (Sends fun _ => False) isCreated := by
  have hsteps := Keeps.of_steps (fun _ => after_isCreated.post fun _ w hw => hw.1)
    fun _ _ hdoes hw => sends_does (M := .nothing) (K := True) (C := fun _ => False)
      (fun _ _ _ hsend => False.elim hsend) (fun _ _ => trivial) hw hdoes
  exact hsteps.weaken (fun _ hw => ⟨hw, fun _ => trivial⟩) (fun _ _ hw => hw.1) fun _ hw => hw.1

/-- The guard of `start` and `stop`. -/
def stateGuard (state : String) : Action Bool := do
  let created ← isCreated
  let row ← self
  pure (created && row.is state)

/-- The guard, and the command behind it. -/
def guarded (state : String) (req : Instance → Request) (cmd : Command) (next : String)
    (later : Option Worker) : Action Bool := do
  let can ← stateGuard state
  if can then sendCommand req cmd false next later else pure false

theorem run_guarded_true {req : Instance → Request} {next : String} {later : Option Worker}
    (hrun : run isCreated w = (.ok true, w₁)) (his : w₁.row.is state = true) :
    run (guarded state req cmd next later) w = run (sendCommand req cmd false next later) w₁ := by
  have hcan : run (stateGuard state) w = (.ok true, w₁) := by
    unfold stateGuard
    rw [run_bind_ok hrun, run_bind_ok (run_self w₁), his]
    rfl
  unfold guarded
  rw [run_bind_ok hcan, if_pos rfl]

/-- Otherwise nothing is sent. -/
theorem state_guarded_false {req : Instance → Request} {next : String} {later : Option Worker}
    (hnot : ∀ w₁, run isCreated w = (.ok true, w₁) → w₁.row.is state = false) :
    (run (guarded state req cmd next later) w).2 = (run isCreated w).2 := by
  unfold guarded
  rcases hrun : run isCreated w with ⟨e | created, w₁⟩
  · have hcan : run (stateGuard state) w = (.error e, w₁) := run_bind_error hrun
    rw [run_bind_error hcan]
  · have hcan : run (stateGuard state) w = (.ok false, w₁) := by
      unfold stateGuard
      rw [run_bind_ok hrun, run_bind_ok (run_self w₁)]
      cases created with
      | false => rfl
      | true => rw [hnot w₁ hrun]; rfl
    rw [run_bind_ok hcan]
    rfl

/-- **Behind the guard the command follows a list**, unless none has come before and the
state is not one that `isCreated` has listed. -/
theorem always_guarded_iff {req : Instance → Request} {next : String} {later : Option Worker}
    (hstate : Lasting state) (hcmd : cmd ≠ .deploy) (hreq : ∀ r, (req r).command = some cmd)
    (hquiet : Sends (fun _ => False) w) :
    Log.Always (Follows cmd fun s => s == state)
        (run (guarded state req cmd next later) w).2.trace ↔
      ¬ (w.trace.any (Event.reports fun s => s == state) = false ∧ Unrefreshed w state) := by
  constructor
  · intro h hstale
    obtain ⟨hunseen, hunrefreshed⟩ := hstale
    obtain ⟨w₁, hrun, his, htrace⟩ := hunrefreshed.run hstate fun s => s == state
    rw [run_guarded_true hrun his] at h
    exact not_always_sendCommand hreq (htrace.trans hunseen) h
  · intro hfresh
    by_cases hsent : ∃ w₁, run isCreated w = (.ok true, w₁) ∧ w₁.row.is state = true
    · obtain ⟨w₁, hrun, his⟩ := hsent
      have hquiet₁ : Sends (fun _ => False) w₁ := by
        have hkept := sends_isCreated.state hquiet
        rwa [hrun] at hkept
      have hseen : w₁.trace.any (Event.reports fun s => s == state) = true := by
        rcases reported_or_unrefreshed hstate hrun his with hreported | hunrefreshed
        · exact hreported
        · obtain ⟨w₂, hrun₂, -, htrace⟩ := hunrefreshed.run hstate fun s => s == state
          obtain rfl : w₁ = w₂ := (Prod.mk.inj (hrun.symm.trans hrun₂)).2
          rw [htrace]
          by_contra hunseen
          exact hfresh ⟨Bool.not_eq_true _ ▸ hunseen, hunrefreshed⟩
      rw [run_guarded_true hrun his]
      exact ((kept_reported.sendCommand hcmd).state ⟨hseen, always_of_quiet hquiet₁⟩).2
    · -- nothing is sent
      rw [state_guarded_false fun w₁ hrun => ?_]
      · exact always_of_quiet (sends_isCreated.state hquiet)
      · by_contra his
        exact hsent ⟨w₁, hrun, Bool.not_eq_false _ ▸ his⟩

/-! ### The first refresh -/

/-- What the list of a live row reports. -/
theorem reports_afterList (p : String → Bool) (htrace : w.trace = []) (s : String) :
    ((w.afterCall (.listVirtualMachines w.row.instanceId)).withState s).trace.any
      (Event.reports p) = w.answer.state.any p := by
  simp [htrace, Event.reports]

theorem answer_state {vm : Vm} {s : String} (hanswer : w.answer = .listVirtualMachines [vm])
    (hs : vm.state = some s) : w.answer.state = some (downcase s) := by
  simp [hanswer, Reply.state, hs]

theorem Lasting.not_destroyed (h : Lasting state) {r : Instance}
    (hgone : r.is "destroyed" = true) : r.is state = false := by
  by_contra his
  have hgoing := h.going (Bool.not_eq_false _ ▸ his)
  simp [Instance.going, hgone] at hgoing

theorem quiet_empty (htrace : w.trace = []) : Sends (fun _ => False) w := by
  intro e he
  rw [htrace] at he
  simp at he

/-- The second refresh, after the first one has failed or was not needed. -/
theorem unrefreshed_iff_of_unanswered (hlive : w.row.is "destroyed" = false)
    (hanswer : w.answer = .nil) :
    Unrefreshed (w.afterCall (.listVirtualMachines w.row.instanceId)) state ↔
      w.fromRow state ∨ w.fromJob state := by
  have hothers : w.others = w.replies.tail := by simp [World.others, hlive]
  unfold World.fromRow World.fromJob
  rw [hothers]
  constructor
  · intro h
    rcases h with ⟨hknown, his, hnext⟩ | h
    · exact Or.inl ⟨hknown, his, hanswer, hnext⟩
    · exact Or.inr h
  · intro h
    rcases h with ⟨hknown, his, -, hnext⟩ | h
    · exact Or.inl ⟨hknown, his, hnext⟩
    · exact Or.inr h

theorem unrefreshed_iff_of_destroyed (hstate : Lasting state)
    (hgone : w.row.is "destroyed" = true) : Unrefreshed w state ↔ w.fromJob state := by
  have hothers : w.others = w.replies := by simp [World.others, hgone]
  unfold World.fromJob
  rw [hothers]
  constructor
  · intro h
    rcases h with ⟨-, his, -⟩ | h
    · rw [hstate.not_destroyed hgone] at his
      exact absurd his (by decide)
    · exact h
  · exact Or.inr

/-- After a first refresh that has listed another state, only the deployment job is left. -/
theorem unreported_iff_of_listed (hstate : Lasting state) (htrace : w.trace = [])
    (hlive : w.row.is "destroyed" = false) {vm : Vm} {s : String}
    (hanswer : w.answer = .listVirtualMachines [vm]) (hs : vm.state = some s) :
    (((w.afterCall (.listVirtualMachines w.row.instanceId)).withState s).trace.any
        (Event.reports fun s => s == state) = false ∧
      Unrefreshed ((w.afterCall (.listVirtualMachines w.row.instanceId)).withState s) state) ↔
      w.fromJob state ∧ ∃ s ∈ w.answer.state, s ≠ state := by
  have hothers : w.others = w.replies.tail := by simp [World.others, hlive]
  rw [reports_afterList _ htrace, answer_state hanswer hs]
  unfold World.fromJob
  rw [hothers]
  constructor
  · intro h
    obtain ⟨hunseen, hunrefreshed⟩ := h
    have hne : downcase s ≠ state := by simpa using hunseen
    refine ⟨?_, downcase s, rfl, hne⟩
    rcases hunrefreshed with ⟨-, his, -⟩ | hjob
    · rw [Instance.is_iff, hstate.plain] at his
      exact absurd his hne
    · exact hjob
  · intro h
    obtain ⟨hjob, s', hs', hne⟩ := h
    obtain rfl := Option.some.inj hs'
    exact ⟨by simpa using hne, Or.inr hjob⟩

/-- An answer that is refused reports nothing. -/
theorem not_fromJob_of_refused (hrefused : ∀ vm s, w.answer = .listVirtualMachines [vm] →
    vm.state = some s → w.holds = false) {s : String} (hs : s ∈ w.answer.state) :
    ¬ w.fromJob state := by
  intro h
  rcases hanswer : w.answer with _ | ⟨_ | ⟨vm, _ | ⟨vm', rest⟩⟩⟩ | _ | _ | _
  case listVirtualMachines.cons.nil =>
    rw [hanswer] at hs
    obtain ⟨st, hst, -⟩ := Option.map_eq_some_iff.mp hs
    have hholds := h.1
    rw [hrefused vm st hanswer hst] at hholds
    exact absurd hholds (by decide)
  all_goals simp [hanswer, Reply.state] at hs

theorem always_start_iff (htrace : w.trace = []) :
    Log.Always (Follows .start fun s => s == "stopped") (run start w).2.trace ↔
      ¬ Stale w .start := by
  have hquiet := quiet_empty htrace
  have hquiet₁ := sends_updateState.state hquiet
  have hcases := refreshes_updateState w
  rcases hrun : run updateState w with ⟨e | o, w₁⟩
  · rw [hrun] at hquiet₁ hcases
    have hstart : run start w = (.error e, w₁) := run_bind_error hrun
    rw [hstart]
    refine iff_of_true (always_of_quiet hquiet₁) fun hstale => ?_
    cases hcases with
    | raises hlive hanswer hrefused =>
      rcases hstale with ⟨-, -, hnil, -⟩ | ⟨hjob, hgone | hnil | ⟨s, hs, -⟩⟩
      · exact hanswer hnil
      · simp [hlive] at hgone
      · exact hanswer hnil
      · exact not_fromJob_of_refused hrefused hs hjob
  · rw [hrun] at hquiet₁ hcases
    have hstart : run start w =
        run (guarded "stopped" (fun r => .startVirtualMachine r.instanceId) .start "starting"
          (some .vmStart)) w₁ := run_bind_ok hrun
    rw [hstart, always_guarded_iff lasting_stopped (by decide) (fun _ => rfl) hquiet₁, not_iff_not]
    cases hcases with
    | gone hgone =>
      rw [unrefreshed_iff_of_destroyed lasting_stopped hgone, htrace]
      constructor
      · exact fun h => Or.inr ⟨h.2, Or.inl hgone⟩
      · intro h
        rcases h with ⟨-, his, -⟩ | ⟨hjob, -⟩
        · rw [lasting_stopped.not_destroyed hgone] at his
          exact absurd his (by decide)
        · exact ⟨rfl, hjob⟩
    | unanswered hlive hanswer =>
      rw [unrefreshed_iff_of_unanswered hlive hanswer, unreported_of_unanswered hanswer, htrace]
      constructor
      · intro h
        rcases h.2 with hrow | hjob
        · exact Or.inl hrow
        · exact Or.inr ⟨hjob, Or.inr (Or.inl hanswer)⟩
      · intro h
        rcases h with hrow | ⟨hjob, -⟩
        · exact ⟨rfl, Or.inl hrow⟩
        · exact ⟨rfl, Or.inr hjob⟩
    | listed hlive hanswer hs hholds =>
      rw [unreported_iff_of_listed lasting_stopped htrace hlive hanswer hs]
      constructor
      · exact fun h => Or.inr ⟨h.1, Or.inr (Or.inr h.2)⟩
      · intro h
        rcases h with ⟨-, -, hnil, -⟩ | ⟨hjob, hgone | hnil | hother⟩
        · simp [hanswer] at hnil
        · simp [hlive] at hgone
        · simp [hanswer] at hnil
        · exact ⟨hjob, hother⟩

theorem always_stop_iff (htrace : w.trace = []) :
    Log.Always (Follows .stop fun s => s == "running") (run (stop false) w).2.trace ↔
      ¬ Stale w (.stop false) := by
  have hquiet := quiet_empty htrace
  have hquiet₁ := sends_updateState.state hquiet
  have hcases := refreshes_updateState w
  unfold stop
  generalize hrun : run updateState w = outcome at hquiet₁ hcases
  cases hcases with
  | raises hlive hanswer hrefused =>
    rw [run_bind_error hrun]
    refine iff_of_true (always_of_quiet hquiet₁) fun hstale => ?_
    obtain ⟨hjob, -, s, hs, -⟩ := hstale
    exact not_fromJob_of_refused hrefused hs hjob
  | gone hgone =>
    rw [run_bind_ok hrun]
    refine iff_of_true (always_of_quiet hquiet₁) fun hstale => ?_
    simp [hstale.2.1] at hgone
  | unanswered hlive hanswer =>
    rw [run_bind_ok hrun]
    refine iff_of_true (always_of_quiet hquiet₁) fun hstale => ?_
    obtain ⟨-, -, s, hs, -⟩ := hstale
    simp [hanswer, Reply.state] at hs
  | listed hlive hanswer hs hholds =>
    rw [run_bind_ok hrun, if_neg (by simp), if_neg (by decide)]
    refine (always_guarded_iff lasting_running (by decide) (fun _ => rfl) hquiet₁).trans ?_
    rw [unreported_iff_of_listed lasting_running htrace hlive hanswer hs]
    exact not_congr ⟨fun h => ⟨h.1, hlive, h.2⟩, fun h => ⟨h.1, h.2.2⟩⟩

/-- `destroy_vm` goes on only with a list. -/
theorem always_destroyVm (htrace : w.trace = []) :
    Log.Always (Follows .destroy fun _ => true) (run destroyVm w).2.trace := by
  have hquiet₁ := sends_updateState.state (quiet_empty htrace)
  have hcases := refreshes_updateState w
  unfold destroyVm
  generalize hrun : run updateState w = outcome at hquiet₁ hcases
  cases hcases with
  | raises hlive hanswer hrefused =>
    rw [run_bind_error hrun]
    exact always_of_quiet hquiet₁
  | gone hgone =>
    rw [run_bind_ok hrun]
    exact always_of_quiet hquiet₁
  | unanswered hlive hanswer =>
    rw [run_bind_ok hrun]
    exact always_of_quiet hquiet₁
  | @listed vm s hlive hanswer hs hholds =>
    rw [run_bind_ok hrun, if_neg (by simp)]
    have hkept := @kept_reported .destroy fun _ => true
    have hrest : Keeps (fun w => w.trace.any (Event.reports fun _ => true) = true ∧
        Log.Always (Follows .destroy fun _ => true) w.trace) (do
          let can ← canDestroy
          if can then
            sendCommand (fun r => .destroyVirtualMachine r.instanceId) .destroy false "Destroying"
              (some .vmDestroy)
          else pure false) := by
      refine Keeps.bind (Keeps.bind read_self fun row => ?_) fun can => ?_
      · exact Keeps.ite (fun _ => Keeps.pure) fun _ => hkept.isCreated
      · exact Keeps.ite (fun _ => hkept.sendCommand (by decide)) fun _ => Keeps.pure
    refine (hrest.state ⟨?_, always_of_quiet hquiet₁⟩).2
    rw [reports_afterList _ htrace, answer_state hanswer hs]
    rfl

end Methods

/-- **A command follows a fresh list, except in the stale cases**, for every row and every
sequence of answers. -/
theorem fresh_iff (w : World) (op : Op) : Fresh w op ↔ ¬ Stale w op := by
  have hother : op.demands = none → Fresh w op := by
    intro hnone cmd p hsome
    rw [hnone] at hsome
    simp at hsome
  have hone : ∀ cmd p, op.demands = some (cmd, p) →
      (Fresh w op ↔ Log.Always (Follows cmd p) (w.log op)) := by
    intro cmd p hdemands
    constructor
    · exact fun h => h cmd p hdemands
    · intro h cmd' p' hdemands'
      obtain ⟨rfl, rfl⟩ := Prod.mk.inj (Option.some.inj (hdemands.symm.trans hdemands'))
      exact h
  cases op with
  | start =>
    rw [hone _ _ rfl]
    unfold World.log Op.run
    rw [state_run_discard]
    exact always_start_iff rfl
  | stop forced =>
    cases forced with
    | true => exact iff_of_true (hother rfl) id
    | false =>
      rw [hone _ _ rfl]
      unfold World.log Op.run
      rw [state_run_discard]
      exact always_stop_iff rfl
  | destroyVm =>
    rw [hone _ _ rfl]
    unfold World.log Op.run
    rw [state_run_discard]
    exact iff_of_true (always_destroyVm rfl) id
  | deploy => exact iff_of_true (hother rfl) id
  | updateState => exact iff_of_true (hother rfl) id
  | isCreated => exact iff_of_true (hother rfl) id
  | vncToSpiceProtocol => exact iff_of_true (hother rfl) id
  | perform job => exact iff_of_true (hother rfl) id

/-- Both lists fail, and `start` sends on the stored state; the deployment job is finished
while `stop` looks on, and the second list fails. -/
theorem stale_commands :
    ¬ Fresh { runningWorld with row := { runningWorld.row with state := "Stopped" } } .start ∧
      ¬ Fresh { runningWorld with
          row := { runningWorld.row with jobCreatedId := some "21" }
          replies := [listing "Starting", finishedJob "vm-1" "Running"] } (.stop false) := by
  constructor
  · intro h
    exact absurd (h .start _ rfl) (by decide)
  · intro h
    exact absurd (h .stop _ rfl) (by decide)

end BkPlatform.Portal
