import BkPlatform.Lib.Log
import BkPlatform.Lib.Run
import BkPlatform.Portal.Commands

/-!
# Commands in flight

A lifecycle command, a forced stop among them, is *open* from the moment its job id is
stored until a reply reports the state it leads to, or the end of its job.  The only record
of it in the portal is the `state` column, which `updateState` overwrites with whatever the
cloud lists; so the guards see a command in flight only as long as the list shows it.

* `start` and an unforced `stop` look for one definite state, so they are never
  sent while anything is open — provided the list does not show the state from
  before the open command.
* `destroy_vm` refuses a machine that is listed as being destroyed, and nothing
  else: it may overtake a start or a stop.
* A forced stop is sent in any state and marks the instance as stopped at once.  What was
  open stays open, and so is the forced stop itself; but until a list shows the machine
  again, the mark is what `start` goes by.

## Main definitions

* `openCommands` — the commands in flight after a log.
* `marked` — the row bears the mark of a forced stop.
* `Exclusive` — nothing is sent while a command is in flight.
* `Ordered` — the weaker order the guards establish.
* `Current` — no list shows a state from before a command in flight.

## Main results

* `ordered_of_current` — **the order holds in every run whose lists are current.**
* `overlap_of_commands` — nothing stronger does.
-/

namespace BkPlatform.Portal

open Eff RubyString Log

/-- The state a command leads to. -/
def Command.target : Command → String
  | .deploy => "running"
  | .start => "running"
  | .stop => "stopped"
  | .destroy => "destroyed"

/-- The job is complete (1) or has failed (2). -/
def JobStatus.finished : JobStatus → Bool
  | .str s => s == "1" || s == "2"
  | .int n => n == 1 || n == 2
  | .missing => false

/-- The state a reply lists for the machine. -/
def Reply.state : Reply → Option String
  | .listVirtualMachines [vm] => vm.state.map downcase
  | _ => none

/-- An entry that ends a command in flight: its target state is listed, or its job is
reported finished. -/
def Event.settles (c : Command × Option String) : Event → Bool
  | .call (.listVirtualMachines _) reply => reply.state == some c.1.target
  | .call (.queryAsyncJobResult jobid) (.queryAsyncJobResult jobstatus _) =>
    jobid.isSome && jobid == c.2 && jobstatus.finished
  | _ => false

/-- The commands in flight after one more entry.  A deployment is not among them:
its job is `job_created_id`. -/
def advance (inFlight : List (Command × Option String)) (e : Event) :
    List (Command × Option String) :=
  let left := inFlight.filter fun c => !e.settles c
  match e with
  | .stored .deploy _ _ => left
  | .stored cmd _ jobid => left ++ [(cmd, jobid)]
  | _ => left

/-- The commands in flight after a log, with their job ids. -/
def openCommands (log : List Event) : List (Command × Option String) := log.foldl advance []

/-- Whether the row bears the mark of a forced stop after one more entry: a listed state
and the state of another command take its place. -/
def marking (before : Bool) : Event → Bool
  | .call (.listVirtualMachines _) reply => before && reply.state.isNone
  | .stored cmd forced _ => cmd == .stop && forced
  | _ => before

/-- The last stop was forced, and since then no list has shown the machine and no other
command has been stored. -/
def marked (log : List Event) : Bool := log.foldl marking false

/-- No command is sent while one is in flight. -/
def Exclusive (before : List Event) : Event → Prop
  | .call (.startVirtualMachine _) _ => openCommands before = []
  | .call (.stopVirtualMachine _ _) _ => openCommands before = []
  | .call (.destroyVirtualMachine _) _ => openCommands before = []
  | _ => True

/-- An unforced stop is not sent while a command is in flight, nor is a start, unless the
row is marked as stopped; and a destroy is not sent while another one is in flight. -/
def Ordered (before : List Event) : Event → Prop
  | .call (.startVirtualMachine _) _ => openCommands before = [] ∨ marked before = true
  | .call (.stopVirtualMachine _ false) _ => openCommands before = []
  | .call (.destroyVirtualMachine _) _ => ∀ c ∈ openCommands before, c.1 ≠ .destroy
  | _ => True

/-- A listed state that is not the one from before the command. -/
def Command.shows (state : String) : Command → Prop
  | .deploy => state ≠ "stopped"
  | .start => state ≠ "stopped"
  | .stop => state ≠ "running"
  | .destroy => state = "destroying" ∨ state = "destroyed"

/-- A list reply is current: for no command in flight it shows the state from
before that command. -/
def Current (before : List Event) : Event → Prop
  | .call (.listVirtualMachines _) reply =>
    ∀ c ∈ openCommands before, ∀ s ∈ reply.state, c.1.shows s
  | _ => True

instance (state : String) (cmd : Command) : Decidable (cmd.shows state) := by
  cases cmd <;> unfold Command.shows <;> infer_instance

instance (before : List Event) (e : Event) : Decidable (Exclusive before e) := by
  unfold Exclusive
  split <;> infer_instance

instance (before : List Event) (e : Event) : Decidable (Ordered before e) := by
  unfold Ordered
  split <;> infer_instance

instance (before : List Event) (e : Event) : Decidable (Current before e) := by
  unfold Current
  split <;> infer_instance

/-- An instance whose machine has been created. -/
def Instance.created (i : Instance) : Prop :=
  i.instanceId.isSome = true ∧ ∃ job, i.jobCreatedId = some job ∧ toBool job = true

/-! ### How the log moves the commands in flight -/

@[simp] theorem openCommands_snoc (log : List Event) (e : Event) :
    openCommands (log ++ [e]) = advance (openCommands log) e := by
  simp [openCommands]

@[simp] theorem marked_snoc (log : List Event) (e : Event) :
    marked (log ++ [e]) = marking (marked log) e := by
  simp [marked]

/-- A call ends commands, it does not put one in flight. -/
theorem mem_advance_call {inFlight : List (Command × Option String)} {req : Request}
    {reply : Reply} {c : Command × Option String} :
    c ∈ advance inFlight (.call req reply) ↔
      c ∈ inFlight ∧ (Event.call req reply).settles c = false := by
  simp [advance]

/-- Sending a command ends none. -/
theorem advance_command {inFlight : List (Command × Option String)} {req : Request}
    {reply : Reply} (hreq : req.command.isSome = true) :
    advance inFlight (.call req reply) = inFlight := by
  cases req <;> simp_all [advance, Request.command, Event.settles]

/-- What is asked of the cloud is no list, or a list with or without a state. -/
theorem marking_command {before : Bool} {req : Request} {reply : Reply}
    (hreq : req.command.isSome = true) : marking before (.call req reply) = before := by
  cases req <;> simp_all [marking, Request.command]

/-- Nothing that is asked for makes the mark. -/
theorem marked_of_marking_call {before : Bool} {req : Request} {reply : Reply}
    (h : marking before (.call req reply) = true) : before = true := by
  cases req <;> simp_all [marking]

/-- A current list that leaves a command in flight shows neither of the states
`start` and `stop` look for. -/
theorem listed_of_inFlight {inFlight : List (Command × Option String)} {id : Option String}
    {reply : Reply} {s : String}
    (hcur : ∀ c ∈ inFlight, ∀ s ∈ reply.state, c.1.shows s) (hs : reply.state = some s)
    {c : Command × Option String}
    (hc : c ∈ advance inFlight (.call (.listVirtualMachines id) reply)) :
    s ≠ "stopped" ∧ s ≠ "running" ∧ (c.1 = .destroy → s = "destroying" ∨ s = "destroyed") := by
  obtain ⟨hmem, hsettle⟩ := mem_advance_call.mp hc
  have hshow := hcur c hmem s hs
  have htarget : s ≠ c.1.target := by simpa [Event.settles, hs] using hsettle
  -- a list that does not end the command shows something on the way to its target
  rcases c with ⟨cmd, jobid⟩
  cases cmd with
  | deploy => exact ⟨hshow, htarget, by simp⟩
  | start => exact ⟨hshow, htarget, by simp⟩
  | stop => exact ⟨htarget, hshow, by simp⟩
  | destroy =>
    have hs : s = "destroying" := hshow.resolve_right htarget
    subst hs
    exact ⟨by decide, by decide, fun _ => Or.inl rfl⟩

/-! ### The invariant -/

/-- While a command is in flight, the machine is shown in neither of the states `start` and
`stop` look for, but for a row that is marked as stopped. -/
def World.Idle (w : World) : Prop :=
  downcase w.row.state ≠ "running" ∧ (downcase w.row.state = "stopped" → marked w.trace = true)

/-- What holds between two statements of the methods: the log is in order and, while a
command is in flight, the state column does not say otherwise.  A row that could be marked
passes its validations, and takes the next state that is listed. -/
structure Tracked (w : World) : Prop where
  created : ∃ job, w.row.jobCreatedId = some job ∧ toBool job = true
  ordered : Always Current w.trace → Always Ordered w.trace
  idle : Always Current w.trace → openCommands w.trace ≠ [] → w.Idle
  valid : marked w.trace = true → w.holds = true

/-- A property of the world that asking the cloud and writing the row keep. -/
structure Stable (R : World → Prop) : Prop where
  row : ∀ w row, R w → R { w with row := row }
  query : ∀ w req, req.command = none → R w → R (w.afterCall req)

theorem stable_true : Stable fun _ => True := ⟨fun _ _ _ => trivial, fun _ _ _ _ => trivial⟩

/-- No destroy is in flight. -/
def NoDestroy (w : World) : Prop :=
  Always Current w.trace → ∀ c ∈ openCommands w.trace, c.1 ≠ .destroy

theorem stable_noDestroy : Stable NoDestroy where
  row := fun _ _ h => h
  query := by
    intro w req _ h hcur c hc
    simp only [World.afterCall, openCommands_snoc] at hc
    exact h hcur.of_append c (mem_advance_call.mp hc).1

/-- Asking the cloud something keeps the invariant, if it leaves the mark. -/
theorem Tracked.afterQuery {w : World} (h : Tracked w) {req : Request} (hreq : req.command = none)
    (hmark : marked w.trace = true → marking true (.call req w.answer) = true) :
    Tracked (w.afterCall req) where
  created := h.created
  ordered := by
    intro hcur
    refine always_snoc.mpr ⟨h.ordered hcur.of_append, ?_⟩
    cases req <;> trivial
  idle := by
    intro hcur hopen
    have hidle : w.Idle := by
      refine h.idle hcur.of_append fun hnil => hopen ?_
      simp [World.afterCall, hnil, advance]
    refine ⟨hidle.1, fun hstopped => ?_⟩
    have hmarked := hidle.2 hstopped
    rw [World.trace_afterCall, marked_snoc, hmarked]
    exact hmark hmarked
  valid := by
    intro hmarked
    rw [World.trace_afterCall, marked_snoc] at hmarked
    exact h.valid (marked_of_marking_call hmarked)

/-- Writing a state that is none of those the guards look for, or none at all, keeps the
invariant. -/
theorem Tracked.write {w : World} (h : Tracked w) {row : Instance}
    (hjob : row.jobCreatedId = w.row.jobCreatedId)
    (hvalid : World.holds { w with row := row } = w.holds)
    (hstate : w.Idle → World.Idle { w with row := row }) : Tracked { w with row := row } where
  created := by
    obtain ⟨job, hj, ht⟩ := h.created
    exact ⟨job, hjob.trans hj, ht⟩
  ordered := h.ordered
  idle := fun hcur hopen => hstate (h.idle hcur hopen)
  valid := fun hmarked => hvalid.trans (h.valid hmarked)

/-- The state is one of a machine on its way out, if a destroy is in flight. -/
def Listed (w : World) : Prop :=
  Always Current w.trace → (∃ c ∈ openCommands w.trace, c.1 = .destroy) →
    downcase w.row.state = "destroying" ∨ downcase w.row.state = "destroyed"

/-- What a listed state is about. -/
theorem Reply.state_eq_some {reply : Reply} {s : String} (h : reply.state = some s) :
    ∃ vm st, reply = .listVirtualMachines [vm] ∧ vm.state = some st ∧ downcase st = s := by
  unfold Reply.state at h
  split at h
  · next vm =>
    obtain ⟨st, hst, hs⟩ := Option.map_eq_some_iff.mp h
    exact ⟨vm, st, rfl, hst, hs⟩
  · cases h

/-- A list that leaves the row as it was leaves the mark. -/
theorem marking_list (id : Option String) {reply : Reply} (h : reply.state = none) :
    marking true (.call (.listVirtualMachines id) reply) = true := by
  simp [marking, h]

/-- A current list, and the row with the state it shows. -/
theorem Tracked.listed {w : World} (h : Tracked w) (id : Option String) {vm : Vm} {s : String}
    (hanswer : w.answer = .listVirtualMachines [vm]) (hs : vm.state = some s) :
    Tracked ((w.afterCall (.listVirtualMachines id)).withState s) ∧
      Listed ((w.afterCall (.listVirtualMachines id)).withState s) := by
  have hstate : w.answer.state = some (downcase s) := by simp [hanswer, Reply.state, hs]
  have hlisted : Always Current (w.trace ++ [.call (.listVirtualMachines id) w.answer]) →
      ∀ c ∈ openCommands (w.trace ++ [.call (.listVirtualMachines id) w.answer]),
        downcase s ≠ "stopped" ∧ downcase s ≠ "running" ∧
          (c.1 = .destroy → downcase s = "destroying" ∨ downcase s = "destroyed") := by
    intro hcur c hc
    rw [openCommands_snoc] at hc
    exact listed_of_inFlight (always_snoc.mp hcur).2 hstate hc
  refine ⟨⟨h.created, fun hcur => ?_, fun hcur hopen => ?_, fun hmarked => ?_⟩, ?_⟩
  · exact always_snoc.mpr ⟨h.ordered hcur.of_append, trivial⟩
  · obtain ⟨c, hc⟩ := List.exists_mem_of_ne_nil _ hopen
    obtain ⟨hstopped, hrunning, -⟩ := hlisted hcur c hc
    exact ⟨hrunning, fun hs => absurd hs hstopped⟩
  · -- the state that is listed takes the place of the mark
    rw [World.trace_withState, World.trace_afterCall, marked_snoc] at hmarked
    simp [marking, hstate] at hmarked
  · rintro hcur ⟨c, hc, hd⟩
    exact (hlisted hcur c hc).2.2 hd

section Stable

variable {R : World → Prop} (hR : Stable R)
include hR

/-- `updateState` keeps the invariant; if it returns a state, that is the listed one. -/
theorem triple_updateState :
    Triple (fun w => Tracked w ∧ R w) updateState
      (fun s w => (Tracked w ∧ R w) ∧ (s ≠ none → Listed w)) (fun w => Tracked w ∧ R w) := by
  rintro w ⟨htr, hr⟩
  have hcases := refreshes_updateState w
  generalize run updateState w = outcome at hcases
  cases hcases with
  | gone hgone => exact ⟨⟨htr, hr⟩, by simp⟩
  | unanswered hlive hanswer =>
    have hnone : w.answer.state = none := by rw [hanswer]; rfl
    exact ⟨⟨htr.afterQuery rfl fun _ => marking_list _ hnone, hR.query w _ rfl hr⟩, by simp⟩
  | listed hlive hanswer hs hholds =>
    obtain ⟨htr', hlisted⟩ := htr.listed w.row.instanceId hanswer hs
    exact ⟨⟨htr', hR.row _ _ (hR.query w _ rfl hr)⟩, fun _ => hlisted⟩
  | raises hlive hanswer hrefused =>
    refine ⟨htr.afterQuery rfl fun hmarked => marking_list _ ?_, hR.query w _ rfl hr⟩
    -- a row that bears the mark would have taken the state
    cases hstate : w.answer.state with
    | none => rfl
    | some s =>
      obtain ⟨vm, st, hlist, hst, -⟩ := Reply.state_eq_some hstate
      exact absurd (htr.valid hmarked) (by simp [hrefused vm st hlist hst])

theorem keeps_updateState : Keeps (fun w => Tracked w ∧ R w) updateState :=
  (triple_updateState hR).post fun _ _ hw => hw.1

theorem keeps_stillThere : Keeps (fun w => Tracked w ∧ R w) stillThere := by
  unfold stillThere
  refine Triple.bind triple_self ?_
  intro row
  refine Triple.ite (fun _ => Triple.pure fun w hw => hw.1) ?_
  intro _
  refine Triple.bind ((keeps_updateState hR).pre fun w hw => hw.1) ?_
  intro _
  refine Triple.bind triple_self ?_
  intro row'
  exact Triple.ite (fun _ => Triple.pure fun w hw => hw.1) fun _ => Triple.pure fun w hw => hw.1

/-- For an instance whose machine is there, `isCreated` asks for no job. -/
theorem keeps_isCreated : Keeps (fun w => Tracked w ∧ R w) isCreated := by
  unfold isCreated
  refine Triple.bind triple_self ?_
  intro row
  rintro w ⟨hw, rfl⟩
  obtain ⟨job, hjob, htrue⟩ := hw.1.created
  rw [hjob]
  simp only [htrue, if_true]
  exact keeps_stillThere hR w hw

end Stable

/-! ### Sending a command -/

/-- Sending a command in order keeps the invariant. -/
theorem Tracked.afterCommand {w : World} (h : Tracked w) {req : Request}
    (hreq : req.command.isSome = true)
    (hord : Always Current w.trace → ∀ reply, Ordered w.trace (.call req reply)) :
    Tracked (w.afterCall req) where
  created := h.created
  ordered := fun hcur =>
    always_snoc.mpr ⟨h.ordered hcur.of_append, hord hcur.of_append _⟩
  idle := by
    intro hcur hopen
    rw [World.trace_afterCall, openCommands_snoc, advance_command hreq] at hopen
    obtain ⟨hrunning, hstopped⟩ := h.idle hcur.of_append hopen
    refine ⟨hrunning, fun hs => ?_⟩
    rw [World.trace_afterCall, marked_snoc, marking_command hreq]
    exact hstopped hs
  valid := by
    intro hmarked
    rw [World.trace_afterCall, marked_snoc] at hmarked
    exact h.valid (marked_of_marking_call hmarked)

/-- Storing a job id keeps the invariant: the state stored with it is none of those
the guards look for, or the stop was forced and has left its mark. -/
theorem Tracked.stored {w : World} (h : Tracked w) {cmd : Command} {forced : Bool}
    {jobid : Option String} {state : String} (hholds : w.holds = true)
    (hstate : (cmd = .stop ∧ forced = true ∧ state = "stopped") ∨
      (downcase state ≠ "stopped" ∧ downcase state ≠ "running")) :
    Tracked (w.stored cmd forced jobid state) where
  created := h.created
  ordered := fun hcur => always_snoc.mpr ⟨h.ordered hcur.of_append, trivial⟩
  idle := by
    intro hcur hopen
    rcases hstate with ⟨rfl, rfl, rfl⟩ | ⟨hstopped, hrunning⟩
    · refine ⟨(by decide : downcase "stopped" ≠ "running"), fun _ => ?_⟩
      show marked (w.trace ++ [.stored .stop true jobid]) = true
      rw [marked_snoc]
      rfl
    · exact ⟨hrunning, fun hs => absurd hs hstopped⟩
  valid := fun _ => hholds

theorem keeps_enqueue {worker : Worker} {snapshot : Instance} :
    Keeps Tracked (performLater worker snapshot) :=
  triple_performLater fun _ _ hw => ⟨hw.created, hw.ordered, hw.idle, hw.valid⟩

theorem Tracked.later {w : World} (h : Tracked w) (later : Option Worker) :
    Tracked (w.later later) := by
  cases later with
  | none => exact h
  | some worker => exact ⟨h.created, h.ordered, h.idle, h.valid⟩

/-- A command sent in order keeps the invariant to its end. -/
theorem keeps_sendCommand {req : Instance → Request} {cmd : Command} {forced : Bool}
    {state : String} {later : Option Worker} (hreq : ∀ r, (req r).command.isSome = true)
    (hstate : (cmd = .stop ∧ forced = true ∧ state = "stopped") ∨
      (downcase state ≠ "stopped" ∧ downcase state ≠ "running")) :
    Triple (fun w => Tracked w ∧ (Always Current w.trace →
        ∀ reply, Ordered w.trace (.call (req w.row) reply)))
      (sendCommand req cmd forced state later) (fun _ => Tracked) Tracked := by
  refine Triple.of_state fun w hw => ?_
  have hcall : Tracked (w.afterCall (req w.row)) := hw.1.afterCommand (hreq _) hw.2
  rw [run_sendCommand]
  cases w.answer with
  | nil => exact hcall
  | listVirtualMachines vms => exact hcall
  | queryAsyncJobResult jobstatus vm => exact hcall
  | malformed => exact hcall
  | job cmd' jobid =>
    by_cases hsame : cmd' = cmd
    · by_cases hholds : w.holds = true
      · simp only [hsame, hholds, if_true]
        exact (hcall.stored hholds hstate).later later
      · simpa only [hsame, hholds, if_true, Bool.false_eq_true, if_false] using hcall
    · simpa only [hsame, if_false] using hcall

/-! ### The operations -/

/-- The invariant alone, from the form with a stable property. -/
theorem keeps_of_stable {α : Type} {x : Action α} (h : Keeps (fun w => Tracked w ∧ True) x) :
    Keeps Tracked x :=
  h.weaken (fun _ hw => ⟨hw, trivial⟩) (fun _ _ hw => hw.1) fun _ hw => hw.1

theorem tracked_updateState : Keeps Tracked updateState :=
  keeps_of_stable (keeps_updateState stable_true)

theorem tracked_isCreated : Keeps Tracked isCreated :=
  keeps_of_stable (keeps_isCreated stable_true)

/-- A guard that asks for one state: when it agrees, that is the state stored. -/
theorem triple_guard {state : String} :
    Triple Tracked (do
        let created ← isCreated
        let row ← self
        pure (created && row.is state))
      (fun can w => Tracked w ∧ (can = true → downcase w.row.state = downcase state))
      Tracked := by
  refine Triple.bind tracked_isCreated ?_
  intro created
  refine Triple.bind triple_self ?_
  intro row
  refine Triple.pure ?_
  rintro w ⟨hw, rfl⟩
  exact ⟨hw, fun h => Instance.is_iff.mp (Bool.and_eq_true_iff.mp h).2⟩

theorem keeps_start : Keeps Tracked start := by
  unfold start canStart
  refine Triple.bind tracked_updateState ?_
  intro _
  refine Triple.bind triple_guard ?_
  intro can
  refine Triple.ite (fun hcan => ?_) fun _ => Triple.pure fun w hw => hw.1
  refine (keeps_sendCommand (fun _ => rfl) (Or.inr (by decide))).pre ?_
  rintro w ⟨hw, hstate⟩
  refine ⟨hw, fun hcur _ => ?_⟩
  -- the guard has seen a stopped machine: one that is, or one that a forced stop has marked
  have hstopped : downcase w.row.state = "stopped" := hstate hcan
  by_cases hopen : openCommands w.trace = []
  · exact Or.inl hopen
  · exact Or.inr ((hw.idle hcur hopen).2 hstopped)

theorem keeps_stop (forced : Bool) : Keeps Tracked (stop forced) := by
  unfold stop canStop
  refine Triple.bind tracked_updateState ?_
  intro _
  refine Triple.ite (fun _ => Triple.pure fun w hw => hw) ?_
  intro _
  refine Triple.ite (fun _ => ?_) fun _ => ?_
  · -- forced: the order says nothing about it
    exact (keeps_sendCommand (fun _ => rfl) (Or.inl ⟨rfl, rfl, rfl⟩)).pre
      fun w hw => ⟨hw, fun _ _ => trivial⟩
  refine Triple.bind triple_guard ?_
  intro can
  refine Triple.ite (fun hcan => ?_) fun _ => Triple.pure fun w hw => hw.1
  refine (keeps_sendCommand (fun _ => rfl) (Or.inr (by decide))).pre ?_
  rintro w ⟨hw, hstate⟩
  refine ⟨hw, fun hcur _ => ?_⟩
  -- the guard has seen a running machine, which an open command rules out
  by_contra hopen
  have hrunning : downcase w.row.state = "running" := hstate hcan
  exact (hw.idle hcur hopen).1 hrunning

/-- `canDestroy?` agrees only when no destroy is in flight. -/
theorem triple_canDestroy :
    Triple (fun w => Tracked w ∧ Listed w) canDestroy
      (fun can w => Tracked w ∧ (can = true → NoDestroy w)) Tracked := by
  unfold canDestroy
  refine Triple.bind triple_self ?_
  intro row
  refine Triple.ite (fun _ => Triple.pure fun w hw => ⟨hw.1.1, by simp⟩) ?_
  intro hgone
  refine (keeps_isCreated stable_noDestroy).weaken ?_ (fun _ w hw => ⟨hw.1, fun _ => hw.2⟩)
    fun w hw => hw.1
  rintro w ⟨⟨hw, hlisted⟩, rfl⟩
  -- an open destroy would be listed, and the first test would have ended the method
  refine ⟨hw, fun hcur c hc hd => hgone ?_⟩
  rw [Bool.or_eq_true, Instance.is_iff, Instance.is_iff]
  exact hlisted hcur ⟨c, hc, hd⟩

theorem keeps_destroyVm : Keeps Tracked destroyVm := by
  unfold destroyVm
  refine Triple.bind ((triple_updateState stable_true).weaken (fun w hw => ⟨hw, trivial⟩)
    (fun _ _ hw => hw) fun w hw => hw.1) fun state => ?_
  refine Triple.ite (fun _ => Triple.pure fun w hw => hw.1.1) ?_
  intro hstate
  refine Triple.bind (triple_canDestroy.pre fun w hw => ⟨hw.1.1, hw.2 hstate⟩) ?_
  intro can
  refine Triple.ite (fun hcan => ?_) fun _ => Triple.pure fun w hw => hw.1
  refine (keeps_sendCommand (fun _ => rfl) (Or.inr (by decide))).pre ?_
  rintro w ⟨hw, hnone⟩
  exact ⟨hw, fun hcur _ => hnone hcan hcur⟩

theorem tracked_vncToSpiceProtocol : Keeps Tracked vncToSpiceProtocol := by
  apply keeps_vncToSpiceProtocol tracked_isCreated tracked_updateState
  · exact fun w ssh hw => ⟨hw.created, hw.ordered, hw.idle, hw.valid⟩
  · -- the address leaves the state alone
    exact fun w hostname port hw => hw.write rfl rfl fun hidle => hidle

/-- Marking the instance with a state the guards do not look for. -/
theorem keeps_mark {state : String}
    (hstate : downcase state ≠ "stopped" ∧ downcase state ≠ "running") :
    Keeps Tracked (updateAttributes fun r => some { r with state := state }) := by
  refine triple_updateAttributes (fun w row hw hrow => ?_) fun w hw => hw
  obtain rfl := Option.some.inj hrow
  exact hw.write rfl rfl fun _ => ⟨hstate.2, fun hs => absurd hs hstate.1⟩

theorem tracked_perform (job : Job) : Keeps Tracked (perform job) := by
  apply keeps_perform tracked_isCreated tracked_updateState tracked_vncToSpiceProtocol
    keeps_enqueue
  · exact triple_postRequest fun w hw => hw.afterQuery rfl fun _ => rfl
  · intro s hs
    rcases hs with rfl | rfl
    · exact keeps_mark (by decide)
    · exact keeps_mark (by decide)

/-! ### Every sequence of operations -/

/-- One operation keeps the invariant. -/
theorem Tracked.operate {w : World} (hw : Tracked w) {c : Call} (hc : c.op ≠ .deploy) :
    Tracked (operate w c) := by
  have hrun : Keeps Tracked c.op.run := by
    cases hop : c.op with
    | deploy => exact absurd hop hc
    | updateState =>
      exact Triple.bind tracked_updateState
        fun _ => Triple.pure fun w hw => hw
    | isCreated =>
      exact Triple.bind tracked_isCreated
        fun _ => Triple.pure fun w hw => hw
    | start => exact Triple.bind keeps_start fun _ => Triple.pure fun w hw => hw
    | stop forced => exact Triple.bind (keeps_stop forced) fun _ => Triple.pure fun w hw => hw
    | destroyVm => exact Triple.bind keeps_destroyVm fun _ => Triple.pure fun w hw => hw
    | vncToSpiceProtocol =>
      exact Triple.bind tracked_vncToSpiceProtocol fun _ => Triple.pure fun w hw => hw
    | perform job => exact tracked_perform job
  exact hrun.state (s := { w with replies := c.replies, ssh := c.ssh })
    ⟨hw.created, hw.ordered, hw.idle, hw.valid⟩

/-- **In every sequence of operations whose lists are current, an unforced stop is sent only
when no command is in flight, a start only then or while the row is marked by a forced stop,
and a destroy only when no other destroy is in flight.** -/
theorem ordered_of_current {w : World} (hcreated : w.row.created) (hlog : w.trace = [])
    {calls : List Call} (hops : ∀ c ∈ calls, c.op ≠ .deploy)
    (hcur : Always Current (calls.foldl operate w).trace) :
    Always Ordered (calls.foldl operate w).trace := by
  have hstart : Tracked w := by
    refine ⟨hcreated.2, ?_, ?_, ?_⟩
    · rw [hlog]
      exact fun _ => always_nil
    · rw [hlog]
      exact fun _ hopen => absurd rfl hopen
    · rw [hlog]
      exact fun hmarked => absurd hmarked Bool.false_ne_true
  have hend : Tracked (calls.foldl operate w) :=
    Run.foldl_inv_along (G := fun _ c => c.op ≠ .deploy) (fun _ _ hw hc => hw.operate hc) hstart
      (Run.along_total_of_forall hops w)
  exact hend.ordered hcur

/-! ### The conditions are needed -/

/-- A created, stopped instance. -/
def stoppedWorld : World where
  row := { id := 1, userId := some 7, instanceId := some "vm-1", jobCreatedId := some "1",
           serviceOfferingId := some 1, templateId := some 1, name := "an-desk",
           displayname := "desk", state := "Stopped" }
  catalogue := ⟨[], [], [⟨1, some "so-1", some 1, some 1000, some 512, some false, none⟩]⟩
  otherNames := []
  replies := []
  ssh := []
  trace := []
  queue := []

/-- The log after an accepted start of the stopped instance and the given calls. -/
def afterStart (calls : List Call) : List Event :=
  let startCall : Call :=
    ⟨.start, [listing "Stopped", listing "Stopped", .job .start (some "job-1")], []⟩
  ((startCall :: calls).foldl operate stoppedWorld).trace

/-- A second start, while the list still shows the machine as stopped. -/
def startAgain : Call :=
  ⟨.start, [listing "Stopped", listing "Stopped", .job .start (some "job-2")], []⟩

/-- A destroy, while the machine is starting. -/
def destroyStarting : Call :=
  ⟨.destroyVm, [listing "Starting", listing "Starting", .job .destroy (some "job-2")], []⟩

/-- A forced stop, while the machine is starting. -/
def forcedStopStarting : Call :=
  ⟨.stop true, [listing "Starting", .job .stop (some "job-2")], []⟩

/-- A start, while the cloud cannot be reached for a list. -/
def startUnlisted : Call := ⟨.start, [.nil, .nil, .job .start (some "job-3")], []⟩

/-- Commands do overlap: a start is sent again on a late list; a destroy and a forced
stop are sent during a start although every list is current, and a start is sent while both
an earlier one and the forced stop that has marked the row are in flight. -/
theorem overlap_of_commands :
    ¬ Always Exclusive (afterStart [startAgain]) ∧
    (Always Current (afterStart [destroyStarting]) ∧
      ¬ Always Exclusive (afterStart [destroyStarting])) ∧
    (Always Current (afterStart [forcedStopStarting]) ∧
      ¬ Always Exclusive (afterStart [forcedStopStarting])) ∧
    (Always Current (afterStart [forcedStopStarting, startUnlisted]) ∧
      openCommands (afterStart [forcedStopStarting]) =
        [(.start, some "job-1"), (.stop, some "job-2")] ∧
      .call (.startVirtualMachine (some "vm-1")) (.job .start (some "job-3")) ∈
        afterStart [forcedStopStarting, startUnlisted]) := by
  decide

/-- The order, on a run in which a destroy overtakes the start and is asked for again. -/
theorem ordered_of_overtaken_start :
    Always Ordered (afterStart [destroyStarting, ⟨.destroyVm, [listing "Destroying"], []⟩]) :=
  ordered_of_current ⟨rfl, "1", rfl, by decide⟩ rfl (by decide) (by decide)

end BkPlatform.Portal
