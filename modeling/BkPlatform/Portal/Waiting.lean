import BkPlatform.Lib.Run
import BkPlatform.Portal.Deploying
import BkPlatform.Portal.Destroyed
import BkPlatform.Portal.Starting

/-!
# Waiting for a machine that is gone

`VMStart` and `VMStop` poll until the machine has left the state they wait in.  For a
destroyed row `updateState` returns `false` without asking, which is what it returns after
a failed call as well, and the workers take both for a reason to try again.  So a job that
was queued when its machine was destroyed is run, and enqueued again, for ever.

## Main definitions

* `GoesOn` — what makes a run of the two workers enqueue itself.
* `EndsWithMachine` — no run that begins after the row was destroyed does.

## Main results

* `queue_poller` — the queue after a run of the workers.
* `endsWithMachine_iff` — **exactly which runs end with their machine.**
* `polls_for_ever` — no run of a destroyed machine's job ever takes it off the queue.
-/

namespace BkPlatform.Portal

open Eff RubyString

/-! ### The property -/

/-- The state in which a worker waits for the next one. -/
def Worker.waitsIn : Worker → Option String
  | .vmStart => some "starting"
  | .vmStop => some "stopping"
  | .vmDeploy => none
  | .vmDestroy => none

/-- The turn is a run of `VMStart` or `VMStop` that enqueues itself. -/
def EnqueuesItself (w : World) : QueueTurn → Prop
  | .call _ => False
  | .work place replies ssh _ =>
    ∃ job ∈ w.queue[place]?, job.worker.waitsIn.isSome = true ∧
      ∃ more, (run (perform job) (w.taken place replies ssh)).2.queue =
          (w.taken place replies ssh).queue ++ more ∧ job ∈ more

/-- At some time the row has been destroyed. -/
def WasDestroyed (w : World) (before : List QueueTurn) : Prop :=
  ∃ early late, before = early ++ late ∧ (early.foldl queueTurn w).row.state = "Destroyed"

/-- A run of `VMStart` or `VMStop` that begins after that does not enqueue itself. -/
def EndsWithMachine (w : World) (turns : List QueueTurn) : Prop :=
  ∀ before a after, turns = before ++ a :: after → WasDestroyed w before →
    ¬ EnqueuesItself (before.foldl queueTurn w) a

/-! ### The condition -/

/-- The reply lists the one machine in this state. -/
def Reply.listsAs (state : String) : Reply → Bool
  | .listVirtualMachines [vm] => vm.state.any fun s => downcase s == state
  | _ => false

/-- The row is a destroyed one, the call fails, or the machine is listed in the state. -/
def goesOn (state : String) (w : World) : Bool :=
  w.row.is "destroyed" || w.answer == .nil || (w.holds && w.answer.listsAs state)

/-- The turn is a run of a worker that goes on. -/
def GoesOn (w : World) : QueueTurn → Prop
  | .call _ => False
  | .work place replies ssh _ =>
    ∃ job ∈ w.queue[place]?, ∃ state, job.worker.waitsIn = some state ∧
      goesOn state (w.taken place replies ssh) = true

/-! ### One run -/

/-- Switching to SPICE enqueues nothing. -/
theorem queue_vncToSpiceProtocol (w : World) :
    (run (do let _ ← vncToSpiceProtocol) w).2.queue = w.queue := by
  have hkeeps : Keeps (fun w' => w'.queue = w.queue) vncToSpiceProtocol := by
    refine Keeps.of_steps (fun w₀ => @after_vncToSpiceProtocol .nothing w₀) ?_
    intro w₁ w₂ hdoes hqueue
    cases hdoes with
    | enqueues hjob => exact False.elim hjob
    | calls hreq hallowed => exact hqueue
    | scripts ssh => exact hqueue
    | lists hcall hs => exact hqueue
    | marks hs => exact hqueue
    | addresses hostname port => exact hqueue
    | creates hjob hopen hcall hrow => exact hqueue
    | stores hcmd hs => exact hqueue
    | approves hargs hpending hcall => exact hqueue
  exact (Keeps.bind hkeeps fun _ => Keeps.pure).state rfl

theorem listsAs_iff {state : String} {reply : Reply} :
    reply.listsAs state = true ↔
      ∃ vm s, reply = .listVirtualMachines [vm] ∧ vm.state = some s ∧ downcase s = state := by
  constructor
  · intro h
    unfold Reply.listsAs at h
    split at h
    · next vm =>
      cases hs : vm.state with
      | none => simp [hs] at h
      | some s => exact ⟨vm, s, rfl, hs, by simpa [hs] using h⟩
    · exact absurd h (by decide)
  · rintro ⟨vm, s, rfl, hs, rfl⟩
    simp [Reply.listsAs, hs]

/-- What the two workers share: a poll, after which they are enqueued again or go on to
something that enqueues nothing. -/
theorem queue_poll {worker : Worker} {snapshot : Instance} {state : String}
    {rest : String → Action Unit} (hrest : ∀ s w, (run (rest s) w).2.queue = w.queue) (w : World) :
    (run (do
        let listed ← updateState
        match listed with
        | none => performLater worker snapshot
        | some s =>
          if downcase s = state then performLater worker snapshot else rest s) w).2.queue =
      if goesOn state w then w.queue ++ [⟨worker, snapshot⟩] else w.queue := by
  rw [run_bind]
  have hcases := refreshes_updateState w
  generalize run updateState w = outcome at hcases
  cases hcases with
  | gone hgone =>
    rw [if_pos (by simp [goesOn, hgone])]
    rfl
  | unanswered hlive hanswer =>
    rw [if_pos (by simp [goesOn, hanswer])]
    rfl
  | @listed vm s hlive hanswer hs hholds =>
    have hgoes : goesOn state w = true ↔ downcase s = state := by
      simp [goesOn, hlive, hanswer, hholds, Reply.listsAs, hs]
    by_cases hstate : downcase s = state
    · rw [if_pos (hgoes.mpr hstate)]
      simp only [hstate, if_true]
      rfl
    · rw [if_neg fun h => hstate (hgoes.mp h)]
      simp only [hstate, if_false]
      exact hrest s _
  | raises hlive hanswer hrefused =>
    -- what is listed is refused
    have hquiet : goesOn state w = false := by
      rw [Bool.eq_false_iff]
      intro h
      simp only [goesOn, hlive, Bool.false_or, Bool.or_eq_true, beq_iff_eq, hanswer, false_or,
        Bool.and_eq_true] at h
      obtain ⟨hholds, hlists⟩ := h
      obtain ⟨vm, s, hreply, hs, -⟩ := listsAs_iff.mp hlists
      rw [hrefused vm s hreply hs] at hholds
      exact Bool.false_ne_true hholds
    rw [if_neg (by simp [hquiet])]
    rfl

/-- **The queue after a run of `VMStart` or `VMStop`.** -/
theorem queue_poller {job : Job} {state : String} (hjob : job.worker.waitsIn = some state)
    (w : World) :
    (run (perform job) w).2.queue = if goesOn state w then w.queue ++ [job] else w.queue := by
  obtain ⟨worker, snapshot⟩ := job
  cases worker with
  | vmDeploy => simp [Worker.waitsIn] at hjob
  | vmDestroy => simp [Worker.waitsIn] at hjob
  | vmStart =>
    obtain rfl : "starting" = state := by simpa [Worker.waitsIn] using hjob
    refine @queue_poll _ _ _ (fun s =>
      if downcase s = "running" then do let _ ← vncToSpiceProtocol else pure ()) (fun s w => ?_) w
    by_cases hrunning : downcase s = "running"
    · simp only [hrunning, if_true]
      exact queue_vncToSpiceProtocol w
    · simp only [hrunning, if_false]
      rfl
  | vmStop =>
    obtain rfl : "stopping" = state := by simpa [Worker.waitsIn] using hjob
    exact @queue_poll _ _ _ (fun _ => pure ()) (fun _ _ => rfl) w

/-- So a turn enqueues its worker exactly if that goes on. -/
theorem enqueuesItself_iff {w : World} {a : QueueTurn} : EnqueuesItself w a ↔ GoesOn w a := by
  cases a with
  | call c => exact Iff.rfl
  | work place replies ssh retried =>
    constructor
    · rintro ⟨job, hplace, hwaits, more, hqueue, hmem⟩
      obtain ⟨state, hstate⟩ := Option.isSome_iff_exists.mp hwaits
      refine ⟨job, hplace, state, hstate, ?_⟩
      by_contra hquiet
      rw [queue_poller hstate, if_neg hquiet, List.self_eq_append_right] at hqueue
      rw [hqueue] at hmem
      exact absurd hmem List.not_mem_nil
    · rintro ⟨job, hplace, state, hstate, hgoes⟩
      refine ⟨job, hplace, by rw [hstate]; rfl, [job], ?_, List.mem_singleton_self job⟩
      rw [queue_poller hstate, if_pos hgoes]

/-! ### Runs -/

/-- **A run ends with its machine exactly if no turn that goes on begins after the row was
destroyed**: the row is not found destroyed, the call does not fail, and the machine is
not listed in the state the worker waits in. -/
theorem endsWithMachine_iff (w : World) (turns : List QueueTurn) :
    EndsWithMachine w turns ↔
      ∀ before a after, turns = before ++ a :: after → WasDestroyed w before →
        ¬ GoesOn (before.foldl queueTurn w) a := by
  constructor
  · intro h before a after hturns hgone hgoes
    exact h before a after hturns hgone (enqueuesItself_iff.mpr hgoes)
  · intro h before a after hturns hgone hagain
    exact h before a after hturns hgone (enqueuesItself_iff.mp hagain)

/-- A job of a destroyed machine goes on whatever the cloud would answer. -/
theorem goesOn_of_destroyed {w : World} (hgone : w.row.is "destroyed" = true) (state : String) :
    goesOn state w = true := by
  simp [goesOn, hgone]

/-- A turn of the one queued job. -/
def QueueTurn.next (replies : List Reply) (ssh : List SshReply) : QueueTurn :=
  .work 0 replies ssh true

/-- A run of it leaves the row destroyed and puts the job back. -/
theorem queueTurn_destroyed {w : World} {job : Job} (hjob : job.worker.waitsIn.isSome = true)
    (hgone : w.row.is "destroyed" = true) (hqueue : w.queue = [job]) (replies : List Reply)
    (ssh : List SshReply) :
    (queueTurn w (.next replies ssh)).row = w.row ∧
      (queueTurn w (.next replies ssh)).queue = [job] := by
  let begin := w.taken 0 replies ssh
  have hplace : w.queue[0]? = some job := by rw [hqueue]; rfl
  have hpoll : run updateState begin = (.ok none, begin) := by
    rw [run_updateState]
    exact if_pos hgone
  have hrun : run (perform job) begin = (.ok (), { begin with queue := begin.queue ++ [job] }) := by
    obtain ⟨worker, snapshot⟩ := job
    cases worker with
    | vmDeploy => simp [Worker.waitsIn] at hjob
    | vmDestroy => simp [Worker.waitsIn] at hjob
    | vmStart =>
      show run (vmStart snapshot) begin = _
      unfold vmStart
      rw [run_bind_ok hpoll]
      rfl
    | vmStop =>
      show run (vmStop snapshot) begin = _
      unfold vmStop
      rw [run_bind_ok hpoll]
      rfl
  have hturn : queueTurn w (.next replies ssh) = { begin with queue := begin.queue ++ [job] } := by
    simp only [queueTurn, QueueTurn.next, hplace, begin] at hrun ⊢
    rw [hrun]
  rw [hturn]
  refine ⟨rfl, ?_⟩
  show (w.queue.eraseIdx 0) ++ [job] = [job]
  rw [hqueue]
  rfl

/-- **It is never taken off the queue for good**, however often it is run. -/
theorem polls_for_ever {job : Job} (hjob : job.worker.waitsIn.isSome = true)
    (answers : List (List Reply × List SshReply)) {w : World}
    (hgone : w.row.is "destroyed" = true) (hqueue : w.queue = [job]) :
    ((answers.map fun a => QueueTurn.next a.1 a.2).foldl queueTurn w).queue = [job] := by
  induction answers generalizing w with
  | nil => exact hqueue
  | cons a answers ih =>
    obtain ⟨hrow, hqueue'⟩ := queueTurn_destroyed hjob hgone hqueue a.1 a.2
    exact ih (by rw [hrow]; exact hgone) hqueue'

/-! ### A stop overtaken by a destroy -/

/-- A stop is accepted and `VMStop` enqueued; then the machine is destroyed, and
`VMDestroy` writes it down. -/
def destroyedWhileStopping : List QueueTurn :=
  [.call ⟨.stop false, [listing "Running", listing "Running", .job .stop (some "41")], []⟩,
   .call ⟨.destroyVm, [listing "Stopping", listing "Stopping", .job .destroy (some "42")], []⟩,
   .work 1 [.queryAsyncJobResult (.int 1) none] [] true]

/-- **`VMStop` does not end with the machine**: the cloud would list nothing more, and is
not even asked. -/
theorem stop_outlives_machine :
    ¬ EndsWithMachine runningWorld (destroyedWhileStopping ++ [.work 0 [] [] true]) := by
  intro h
  refine h destroyedWhileStopping _ [] rfl ⟨destroyedWhileStopping, [], rfl, by decide⟩ ?_
  refine enqueuesItself_iff.mpr ⟨_, rfl, "stopping", by decide, ?_⟩
  exact goesOn_of_destroyed (by decide) _

end BkPlatform.Portal
