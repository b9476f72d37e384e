import BkPlatform.Lib.Run
import BkPlatform.Portal.Binding
import BkPlatform.Portal.Observed
import Mathlib.Data.Set.Basic

/-!
# What `isCreated` goes by

`job_created_id` holds the id of the deployment job, and `"1"` once the job is done:
`isCreated` takes an id that reads as true for a finished job.  What reads as true is a
matter of the lines of the string, so an id the cloud has issued may do so from the start,
and a machine is reported that no one has created.

With any other id the report is grounded: the last deployment's job was asked for, was
finished, and the row has the id of its machine.

## Main definitions

* `lastJob` — the job id that `deploy` has stored last.
* `Grounded` — wherever `isCreated` says true, the job was reported as finished, with the
  machine of the row.
* `Known` — the invariant of the column.

## Main results

* `grounded_iff` — **every run is grounded exactly when no job id reads as true.**
-/

namespace BkPlatform.Portal

open Eff RubyString

/-! ### The property -/

/-- The job id that `deploy` has stored last. -/
def lastJob (log : List Event) : Option String :=
  log.foldl (fun last e => match e with
    | .stored .deploy _ jobid => jobid
    | _ => last) none

/-- The answer for the job says that it is finished, with that machine. -/
def Event.completes (job : String) (id : Option String) : Event → Bool
  | .call (.queryAsyncJobResult (some jobid)) (.queryAsyncJobResult (.str s) (some vm)) =>
    jobid == job && toBool s && vm.id == id
  | _ => false

/-- The last deployment's job was reported as finished, with the machine of the row. -/
def Reported (w : World) : Prop :=
  ∃ job, lastJob w.trace = some job ∧ w.trace.any (Event.completes job w.row.instanceId) = true

/-- **`isCreated` says true only if that was so**, whatever is answered while it runs. -/
def Grounded (w : World) : Prop :=
  ∀ replies ssh w', run isCreated { w with replies := replies, ssh := ssh } = (.ok true, w') →
    Reported w'

/-- The row has not been deployed yet. -/
structure Undeployed (w : World) : Prop where
  noJob : w.row.jobCreatedId = none
  noLog : w.trace = []

/-- The ids the cloud gives to deployment jobs during these calls. -/
def Issues (jobs : Set String) (calls : List Call) : Prop :=
  ∀ c ∈ calls, ∀ job, Reply.job .deploy (some job) ∈ c.replies → job ∈ jobs

/-! ### The invariant -/

/-- An id that reads as true stands for a finished job, and any other one is the job's
own. -/
def Known (w : World) : Prop :=
  ∀ job, w.row.jobCreatedId = some job →
    if toBool job then Reported w else lastJob w.trace = some job

@[simp] theorem lastJob_snoc (log : List Event) (e : Event) :
    lastJob (log ++ [e]) = match e with
      | .stored .deploy _ jobid => jobid
      | _ => lastJob log := by
  simp [lastJob]

/-- What has been reported stays reported while the row keeps its machine and no other
deployment is stored. -/
theorem Reported.mono {w w' : World} (h : Reported w) (hlast : lastJob w'.trace = lastJob w.trace)
    (hid : w'.row.instanceId = w.row.instanceId)
    (hmem : ∀ e ∈ w.trace, e ∈ w'.trace) : Reported w' := by
  obtain ⟨job, hjob, hany⟩ := h
  obtain ⟨e, he, hcompletes⟩ := List.any_eq_true.mp hany
  refine ⟨job, hlast.trans hjob, List.any_eq_true.mpr ⟨e, hmem e he, ?_⟩⟩
  rw [hid]
  exact hcompletes

theorem Known.mono {w w' : World} (h : Known w) (hlast : lastJob w'.trace = lastJob w.trace)
    (hjob : w'.row.jobCreatedId = w.row.jobCreatedId)
    (hid : w'.row.instanceId = w.row.instanceId)
    (hmem : ∀ e ∈ w.trace, e ∈ w'.trace) : Known w' := by
  intro job hcolumn
  have hknown := h job (hjob.symm.trans hcolumn)
  split
  · next htrue =>
    rw [if_pos htrue] at hknown
    exact hknown.mono hlast hid hmem
  · next hfalse =>
    rw [if_neg hfalse] at hknown
    exact hlast.trans hknown

/-- Every method but `deploy` keeps it: only a finished job changes the column. -/
theorem kept_known : Kept Known where
  calls := fun w req hw =>
    hw.mono (by simp) rfl rfl fun e he => List.mem_append_left _ he
  writes := fun w s hw => hw.mono rfl rfl rfl fun e he => he
  enqueues := fun w job hw => hw.mono rfl rfl rfl fun e he => he
  stores := by
    intro w cmd forced jobid s hcmd hw
    refine hw.mono ?_ rfl rfl fun e he => List.mem_append_left _ he
    show lastJob (w.trace ++ [.stored cmd forced jobid]) = _
    cases cmd with
    | deploy => exact absurd rfl hcmd
    | start => simp
    | stop => simp
    | destroy => simp
  checks := by
    intro w job hjob hopen hw
    have hasked : Known (w.afterCall (.queryAsyncJobResult (some job))) :=
      hw.mono (by simp) rfl rfl fun e he => List.mem_append_left _ he
    have hcases := asks_checkCreated job w
    generalize run (checkCreated job) w = outcome at hcases
    cases hcases with
    | unfinished => exact hasked
    | failed hholds => exact hasked.mono rfl rfl rfl fun e he => he
    | raises => exact hasked
    | @finished s vm row hanswer hdone hrow hholds =>
      obtain ⟨st, -, rfl⟩ := Option.map_eq_some_iff.mp hrow
      have hlast := hw job hjob
      rw [if_neg (by simp [hopen])] at hlast
      -- the job that was asked for is the one stored last
      have hreported : Reported { w.afterCall (.queryAsyncJobResult (some job)) with
          row := { w.row with
            instanceId := vm.id, createdAt := vm.created, state := st,
            jobCreatedId := some "1" } } := by
        refine ⟨job, ?_, ?_⟩
        · simp [hlast]
        · simp [hanswer, Event.completes, hdone]
      intro job' hjob'
      obtain rfl : "1" = job' := Option.some.inj hjob'
      rw [if_pos (by decide)]
      exact hreported

/-! ### The deployment -/

/-- `deploy` keeps the invariant if its job id does not read as true. -/
theorem known_deploy {w : World}
    (hopen : ∀ job, w.answer = .job .deploy (some job) → toBool job = false) (hw : Known w) :
    Known (run deploy w).2 := by
  have hcases := deploys_deploy w
  generalize run deploy w = outcome at hcases
  cases hcases with
  | idle => exact hw
  | refused => exact kept_known.calls w _ hw
  | @accepted args jobid hanswer =>
    intro job hjob
    obtain rfl : jobid = some job := hjob
    rw [if_neg (by simp [hopen job hanswer])]
    show lastJob (_ ++ [_]) = _
    rw [lastJob_snoc]

/-! ### Runs -/

section Runs

variable {w : World} {calls : List Call}

theorem known_operate {c : Call}
    (hopen : ∀ job, Reply.job .deploy (some job) ∈ c.replies → toBool job = false)
    (hw : Known w) : Known (operate w c) := by
  have hstart : Known { w with replies := c.replies, ssh := c.ssh } :=
    hw.mono rfl rfl rfl fun e he => he
  by_cases hop : c.op = .deploy
  · have hoperate : operate w c = (run (do let _ ← deploy : Action Unit)
        { w with replies := c.replies, ssh := c.ssh }).2 := by
      rw [operate, hop]
      rfl
    rw [hoperate, state_run_discard]
    refine known_deploy (fun job hanswer => hopen job ?_) hstart
    -- the answer is the first of the replies
    cases hreplies : c.replies with
    | nil => simp [World.answer, hreplies] at hanswer
    | cons reply rest =>
      simp only [World.answer, hreplies, List.headD_cons] at hanswer
      rw [hanswer]
      exact List.mem_cons_self
  · exact (kept_known.run hop (fun w ssh hw => hw.mono rfl rfl rfl fun e he => he)
      fun w hostname port hw => hw.mono rfl rfl rfl fun e he => he).state hstart

/-- As long as no job id reads as true, the column is what it says. -/
theorem known_run (hnew : Undeployed w)
    (hopen : ∀ c ∈ calls, ∀ job, Reply.job .deploy (some job) ∈ c.replies → toBool job = false) :
    Known (calls.foldl operate w) := by
  refine Run.foldl_inv_along (I := Known) (fun w' c hw' hc => known_operate hc hw') ?_
    (Run.along_total_of_forall hopen w)
  intro job hjob
  rw [hnew.noJob] at hjob
  simp at hjob

/-- `isCreated` says true with the job done. -/
theorem done_of_created {w' : World} (h : run isCreated w = (.ok true, w')) :
    ∃ job, w'.row.jobCreatedId = some job ∧ toBool job = true := by
  obtain ⟨w₁, hdone, hstill⟩ := done_of_true h
  have hcolumn : w'.row.jobCreatedId = w₁.row.jobCreatedId := by
    obtain ⟨-, ⟨-, rfl⟩ | ⟨vm, s, -, -, rfl⟩⟩ := stillThere_true hstill
    · rfl
    · rfl
  rw [hcolumn]
  cases hdone with
  | known hknown => exact (Option.any_eq_true _ _).mp hknown
  | finished hjob hopen hanswer hread hdate hrow hholds =>
    obtain ⟨st, -, rfl⟩ := Option.map_eq_some_iff.mp hrow
    exact ⟨"1", rfl, by decide⟩

theorem Known.grounded (h : Known w) : Grounded w := by
  intro replies ssh w' hrun
  have hstart : Known { w with replies := replies, ssh := ssh } :=
    h.mono rfl rfl rfl fun e he => he
  have hkept := kept_known.isCreated.state hstart
  rw [hrun] at hkept
  obtain ⟨job, hjob, htrue⟩ := done_of_created hrun
  have hknown := hkept job hjob
  rwa [if_pos htrue] at hknown

/-- **A deployment whose job id reads as true is taken for done at once.** -/
theorem not_grounded_of_true {args : DeployArgs} {job : String} (hnew : Undeployed w)
    (hpending : w.row.is "pending" = true) (hargs : deployArgs w.catalogue w.row = .ok args)
    (htrue : toBool job = true) :
    ¬ Grounded (operate w ⟨.deploy, [.job .deploy (some job)], []⟩) := by
  intro h
  have hoperate : operate w ⟨.deploy, [.job .deploy (some job)], []⟩ =
      World.deployed { w with replies := [.job .deploy (some job)], ssh := [] } args
        (some job) := by
    have hrun := @run_deploy_answered { w with replies := [.job .deploy (some job)], ssh := [] }
      args (some job) hpending hargs rfl
    show (run (do let _ ← deploy : Action Unit) _).2 = _
    rw [state_run_discard, hrun]
  rw [hoperate] at h
  -- nothing is answered, and `isCreated` says true
  have hgoing : ∀ r : Instance, r.state = "approving" → r.going = false := by
    intro r hstate
    simp only [Instance.going, Instance.is, hstate]
    decide
  have hdone := (@Done.known { World.deployed
      { w with replies := [.job .deploy (some job)], ssh := [] } args (some job) with
    replies := [], ssh := [] } htrue).run
  rw [run_stillThere_unanswered (hgoing _ rfl) rfl] at hdone
  obtain ⟨job', -, hreported⟩ := h [] [] _ hdone
  simp [World.deployed, hnew.noLog, Event.completes] at hreported

end Runs

/-- **Every run of a new row is grounded exactly when no id of a deployment job reads as
true**, whatever ids the cloud may give. -/
theorem grounded_iff (jobs : Set String) :
    (∀ w calls, Undeployed w → Issues jobs calls → Grounded (calls.foldl operate w)) ↔
      ∀ job ∈ jobs, toBool job = false := by
  constructor
  · intro h job hjob
    by_contra htrue
    refine @not_grounded_of_true pendingWorld _ job ⟨rfl, rfl⟩ (by decide) rfl
      (Bool.not_eq_false _ ▸ htrue) (h pendingWorld [⟨.deploy, [.job .deploy (some job)], []⟩]
        ⟨rfl, rfl⟩ ?_)
    intro c hc job' hjob'
    obtain rfl := List.mem_singleton.mp hc
    obtain rfl : job' = job := by simpa using hjob'
    exact hjob
  · intro hopen w calls hnew hissues
    exact (known_run hnew fun c hc job hjob => hopen job (hissues c hc job hjob)).grounded

/-- The job is called `1`, or has a line that reads as true. -/
theorem ungrounded_deployment :
    ¬ Grounded (operate pendingWorld ⟨.deploy, [.job .deploy (some "1")], []⟩) ∧
      ¬ Grounded (operate pendingWorld ⟨.deploy, [.job .deploy (some "21\nyes")], []⟩) := by
  constructor
  · exact not_grounded_of_true ⟨rfl, rfl⟩ (by decide) rfl (by decide)
  · exact not_grounded_of_true ⟨rfl, rfl⟩ (by decide) rfl (by decide)

end BkPlatform.Portal
