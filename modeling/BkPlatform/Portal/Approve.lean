import BkPlatform.Lib.CheckThenAct
import BkPlatform.Portal.Lifecycle

/-!
# Concurrent approvals of one instance

`approve` loads the row and calls `deploy` on the copy.  The guard `is_pending?`
looks at the copy, the two columns are written only after the cloud has answered,
and there is no lock and no conditional update: between the load and the write of
`"approving"` any number of other requests may load the same pending row.

The requests race for the pending row as parties race for a resource that is
checked and closed in different steps, so the results on such races apply.  What
a request does alone is what `deploy` does (`exec_undisturbed`).

## Main definitions

* `Stage` — how far a request has come, with the copy it works on.
* `Site`, `ApproveStep`, `approveStep` — the row, the requests and their steps.
* `accepted` — the job ids of the deployments the cloud has accepted.
* `LoneLoad` — a pending row is not loaded while another request holds it pending.
* `DeployedOnce` — at most one accepted deployment, and its job id is the stored one.

## Main results

* `exec_undisturbed` — a request that is not interleaved does what `deploy` does.
* `deployedOnce_of_loneLoad` — **at most one deployment is accepted**, in every run
  whose loads are alone.
* `two_jobs_of_overlap` — with two requests past the guard, both can be accepted.
-/

namespace BkPlatform.Portal

open CheckThenAct Run

variable {ι : Type*}

/-! ### Requests and their steps -/

/-- How far an approve request has come; the copy is the record in its memory. -/
inductive Stage
  /-- Before `Instance.find`. -/
  | waiting
  /-- The row has been loaded. -/
  | loaded (copy : Instance)
  /-- The copy was pending. -/
  | passed (copy : Instance)
  /-- The cloud has accepted the deployment. -/
  | replied (copy : Instance) (jobid : Option String)
  /-- The job id has been written. -/
  | stored (copy : Instance)
  /-- `deploy` has returned or raised. -/
  | finished (result : Except Raised Bool)
  deriving DecidableEq

/-- One row and the approve requests on it. -/
structure Site (ι : Type*) where
  row : Instance
  stage : ι → Stage
  trace : List Event
  queue : List Job

/-- One step of a request; the send comes with what `postRequest` makes of the answer. -/
inductive ApproveStep (ι : Type*)
  | load (i : ι)
  | test (i : ι)
  | send (i : ι) (reply : Reply)
  | writeJob (i : ι)
  | writeState (i : ι)

section Steps

variable [DecidableEq ι]

/-- Request `i` moves on. -/
def Site.put (s : Site ι) (i : ι) (stage : Stage) : Site ι :=
  { s with stage := Function.update s.stage i stage }

/-- `res.nil?` and `res["deployvirtualmachineresponse"]["jobid"]`. -/
def afterReply (copy : Instance) : Reply → Stage
  | .nil => .finished (.ok false)
  | .job .deploy jobid => .replied copy jobid
  | _ => .finished (.error .noMethodError)

/-- The steps of `approve` and `deploy`; a step is enabled for a request that has
come to it. -/
def approveStep (cat : Catalogue) (s : Site ι) : ApproveStep ι → Option (Site ι)
  | .load i =>
    match s.stage i with
    | .waiting => some (s.put i (.loaded s.row))
    | _ => none
  | .test i =>
    match s.stage i with
    | .loaded copy =>
      if copy.is "pending" then some (s.put i (.passed copy))
      else some (s.put i (.finished (.ok false)))
    | _ => none
  | .send i reply =>
    match s.stage i with
    | .passed copy =>
      match deployArgs cat copy with
      | .error e => some (s.put i (.finished (.error e)))
      | .ok args =>
        let trace := s.trace ++ [Event.call (.deployVirtualMachine args) reply]
        some ({ s with trace := trace }.put i (afterReply copy reply))
    | _ => none
  | .writeJob i =>
    match s.stage i with
    | .replied copy jobid =>
      let row := { s.row with jobCreatedId := jobid }
      let trace := s.trace ++ [Event.stored .deploy false jobid]
      some ({ s with row := row, trace := trace }.put i
        (.stored { copy with jobCreatedId := jobid }))
    | _ => none
  | .writeState i =>
    match s.stage i with
    | .stored copy =>
      let row := { s.row with state := "approving" }
      let queue := s.queue ++ [⟨.vmDeploy, { copy with state := "approving" }⟩]
      some ({ s with row := row, queue := queue }.put i (.finished (.ok true)))
    | _ => none

/-- All steps of one request. -/
def oneRequest (i : ι) (reply : Reply) : List (ApproveStep ι) :=
  [.load i, .test i, .send i reply, .writeJob i, .writeState i]

end Steps

/-- The job id a log entry reports as accepted for a deployment. -/
def Event.deployed : Event → Option (Option String)
  | .call (.deployVirtualMachine _) (.job .deploy jobid) => some jobid
  | _ => none

/-- The job ids of the accepted deployments, in the order they were accepted. -/
def accepted (log : List Event) : List (Option String) := log.filterMap Event.deployed

/-- The request has written its job id. -/
def Stage.hasStored : Stage → Bool
  | .stored _ => true
  | .finished (.ok true) => true
  | _ => false

/-- Where a stage stands in the race for the pending row: inside from the load of a
pending row to the end, a winner once the cloud has accepted. -/
def Stage.phase : Stage → Phase
  | .waiting => .idle
  | .loaded copy => if copy.is "pending" then .inside false else .done false
  | .passed _ => .inside false
  | .replied _ _ => .inside true
  | .stored _ => .inside true
  | .finished (.ok true) => .done true
  | .finished _ => .done false

/-- A request loads a pending row only when no other request has loaded it pending
and is still under way. -/
def LoneLoad (s : Site ι) : ApproveStep ι → Prop
  | .load _ => s.row.is "pending" = true → ∀ j, (s.stage j).phase.isInside = false
  | _ => True

instance (s : Site Bool) (a : ApproveStep Bool) : Decidable (LoneLoad s a) := by
  cases a <;> unfold LoneLoad <;> infer_instance

/-- At most one deployment has been accepted; the row holds its job id as soon as
the request that sent it has stored one, and the initial one before. -/
structure DeployedOnce (initial : Option String) (s : Site ι) : Prop where
  once : (accepted s.trace).length ≤ 1
  stored : ∀ i, (s.stage i).hasStored = true → accepted s.trace = [s.row.jobCreatedId]
  answered : ∀ jobid ∈ accepted s.trace,
    (∃ i copy, s.stage i = .replied copy jobid) ∨ s.row.jobCreatedId = jobid
  untouched : accepted s.trace = [] → s.row.jobCreatedId = initial

/-! ### A request alone -/

theorem accepted_snoc (log : List Event) (e : Event) :
    accepted (log ++ [e]) = accepted log ++ e.deployed.toList := by
  cases h : e.deployed <;> simp [accepted, h]

/-- An answer is an accepted job, or it ends the request. -/
theorem afterReply_cases (copy : Instance) (reply : Reply) :
    (∃ jobid, reply = .job .deploy jobid) ∨
      ∃ result, afterReply copy reply = .finished result := by
  rcases reply with _ | vms | ⟨_ | _ | _ | _, jobid⟩ | ⟨jobstatus, vm⟩ | _
  case job.deploy => exact Or.inl ⟨jobid, rfl⟩
  all_goals exact Or.inr ⟨_, rfl⟩

/-- `deploy` on a pending row whose deployment the cloud does not accept. -/
theorem run_deploy_refused {w : World} {args : DeployArgs} {reply : Reply}
    {result : Except Raised Bool} (hpending : w.row.is "pending" = true)
    (hargs : deployArgs w.catalogue w.row = .ok args)
    (hafter : afterReply w.row reply = .finished result) :
    Eff.run deploy { w with replies := [reply] } =
      (result, { w with replies := [],
                        trace := w.trace ++ [.call (.deployVirtualMachine args) reply] }) := by
  rcases reply with _ | vms | ⟨_ | _ | _ | _, jobid⟩ | ⟨jobstatus, vm⟩ | _
  case job.deploy => simp [afterReply] at hafter
  all_goals
    obtain rfl := Stage.finished.inj hafter
    simp [deploy, Eff.run_bind, hpending, hargs, postRequest, jobidOf]

/-- The row after an accepted deployment. -/
def approvedRow (row : Instance) (jobid : Option String) : Instance :=
  { row with jobCreatedId := jobid, state := "approving" }

/-- `deploy` on a pending row whose deployment the cloud accepts. -/
theorem run_deploy_accepted {w : World} {args : DeployArgs} (jobid : Option String)
    (hpending : w.row.is "pending" = true) (hargs : deployArgs w.catalogue w.row = .ok args) :
    Eff.run deploy { w with replies := [.job .deploy jobid] } =
      (.ok true, { w with
        row := approvedRow w.row jobid, replies := [],
        trace := w.trace ++ [.call (.deployVirtualMachine args) (.job .deploy jobid),
          .stored .deploy false jobid],
        queue := w.queue ++ [⟨.vmDeploy, approvedRow w.row jobid⟩] }) := by
  simp [deploy, Eff.run_bind, hpending, hargs, postRequest, jobidOf, updateColumn, logStored,
    self, performLater, approvedRow]

/-- The world `deploy` runs in when request `i` is alone. -/
def Site.world (s : Site ι) (cat : Catalogue) (names : List String) (replies : List Reply) :
    World :=
  ⟨s.row, cat, names, replies, [], s.trace, s.queue⟩

/-- **A request that is not interleaved does what `deploy` does**: it comes to its
end, with the result of `deploy` and the row, the log and the queue `deploy` leaves. -/
theorem exec_undisturbed [DecidableEq ι] {s : Site ι} {i : ι} (hi : s.stage i = .waiting)
    (cat : Catalogue) (names : List String) (reply : Reply) :
    ∃ n t result replies, exec (approveStep cat) s ((oneRequest i reply).take n) = some t ∧
      t.stage i = .finished result ∧
      Eff.run deploy (s.world cat names [reply]) = (result, t.world cat names replies) := by
  cases hpending : s.row.is "pending" with
  | false =>
    -- the guard stops the request
    refine ⟨2, s.put i (.finished (.ok false)), .ok false, [reply], ?_, ?_, ?_⟩
    · simp [oneRequest, approveStep, hi, Site.put, hpending]
    · simp [Site.put]
    · simp [deploy, Eff.run_bind, hpending, Site.world, Site.put]
  | true =>
    cases hargs : deployArgs cat s.row with
    | error e =>
      -- the arguments are put together only when the call is to be sent
      refine ⟨3, s.put i (.finished (.error e)), .error e, [reply], ?_, ?_, ?_⟩
      · simp [oneRequest, approveStep, hi, Site.put, hpending, hargs]
      · simp [Site.put]
      · simp [deploy, Eff.run_bind, hpending, hargs, Site.world, Site.put]
    | ok args =>
      let sent := { s with trace := s.trace ++ [Event.call (.deployVirtualMachine args) reply] }
      have hsend : exec (approveStep cat) s [.load i, .test i, .send i reply] =
          some (sent.put i (afterReply s.row reply)) := by
        simp [approveStep, hi, Site.put, hpending, hargs, sent]
      rcases afterReply_cases s.row reply with ⟨jobid, rfl⟩ | ⟨result, hafter⟩
      · -- the cloud has accepted: two more steps write the two columns
        let done : Site ι :=
          { row := approvedRow s.row jobid, stage := s.stage,
            trace := sent.trace ++ [.stored .deploy false jobid],
            queue := s.queue ++ [⟨.vmDeploy, approvedRow s.row jobid⟩] }
        refine ⟨5, done.put i (.finished (.ok true)), .ok true, [], ?_, ?_, ?_⟩
        · have hsplit : (oneRequest i (.job .deploy jobid)).take 5 =
              [.load i, .test i, .send i (.job .deploy jobid)] ++
                [.writeJob i, .writeState i] := rfl
          rw [hsplit, exec_append, hsend]
          simp [approveStep, Site.put, afterReply, approvedRow, sent, done]
        · simp [Site.put]
        · have hrun := run_deploy_accepted (w := s.world cat names []) jobid hpending hargs
          simpa [Site.world, Site.put, sent, done] using hrun
      · -- the answer has ended the request, with the call logged
        refine ⟨3, sent.put i (.finished result), result, [], ?_, ?_, ?_⟩
        · rw [← hafter]
          exact hsend
        · simp [Site.put]
        · exact run_deploy_refused (w := s.world cat names []) hpending hargs hafter

/-! ### What a step can do -/

section Effects

variable [DecidableEq ι]

/-- What a step changes, by the stage its request is at. -/
inductive Effect (s : Site ι) : ApproveStep ι → Site ι → Prop
  | loads {i : ι} (hi : s.stage i = .waiting) : Effect s (.load i) (s.put i (.loaded s.row))
  | passes {i : ι} {copy : Instance} (hi : s.stage i = .loaded copy)
      (hpending : copy.is "pending" = true) : Effect s (.test i) (s.put i (.passed copy))
  | stops {i : ι} {copy : Instance} (hi : s.stage i = .loaded copy)
      (hpending : copy.is "pending" = false) :
      Effect s (.test i) (s.put i (.finished (.ok false)))
  | refused {i : ι} {copy : Instance} {reply : Reply} {result : Except Raised Bool}
      (trace : List Event) (hi : s.stage i = .passed copy) (hresult : result ≠ .ok true)
      (htrace : accepted trace = accepted s.trace) :
      Effect s (.send i reply) ({ s with trace := trace }.put i (.finished result))
  | accepts {i : ι} {copy : Instance} {reply : Reply} {jobid : Option String}
      {trace : List Event} (hi : s.stage i = .passed copy)
      (htrace : accepted trace = accepted s.trace ++ [jobid]) :
      Effect s (.send i reply) ({ s with trace := trace }.put i (.replied copy jobid))
  | writesJob {i : ι} {copy copy' : Instance} {jobid : Option String} {trace : List Event}
      (hi : s.stage i = .replied copy jobid) (htrace : accepted trace = accepted s.trace) :
      Effect s (.writeJob i)
        ({ s with row := { s.row with jobCreatedId := jobid }, trace := trace }.put i
          (.stored copy'))
  | writesState {i : ι} {copy : Instance} {queue : List Job} (hi : s.stage i = .stored copy) :
      Effect s (.writeState i)
        ({ s with row := { s.row with state := "approving" }, queue := queue }.put i
          (.finished (.ok true)))

/-- The answers that do not accept a deployment. -/
theorem refused_of_afterReply {copy : Instance} {reply : Reply} {result : Except Raised Bool}
    (hafter : afterReply copy reply = .finished result) (args : DeployArgs) :
    result ≠ .ok true ∧ (Event.call (.deployVirtualMachine args) reply).deployed = none := by
  rcases reply with _ | vms | ⟨_ | _ | _ | _, jobid⟩ | ⟨jobstatus, vm⟩ | _
  case job.deploy => simp [afterReply] at hafter
  all_goals
    obtain rfl := Stage.finished.inj hafter
    exact ⟨by simp, rfl⟩

/-- Every step has one of these effects. -/
theorem effect_of_step {cat : Catalogue} {s t : Site ι} {a : ApproveStep ι}
    (hstep : approveStep cat s a = some t) : Effect s a t := by
  cases a with
  | load i =>
    simp only [approveStep] at hstep
    split at hstep
    · next hi =>
      obtain rfl := Option.some.inj hstep
      exact .loads hi
    · simp at hstep
  | test i =>
    simp only [approveStep] at hstep
    split at hstep
    · next copy hi =>
      split at hstep
      · next hpending =>
        obtain rfl := Option.some.inj hstep
        exact .passes hi hpending
      · next hpending =>
        obtain rfl := Option.some.inj hstep
        exact .stops hi (by simpa using hpending)
    · simp at hstep
  | send i reply =>
    simp only [approveStep] at hstep
    split at hstep
    · next copy hi =>
      split at hstep
      · obtain rfl := Option.some.inj hstep
        exact .refused s.trace hi (by simp) rfl
      · next args hargs =>
        obtain rfl := Option.some.inj hstep
        rcases afterReply_cases copy reply with ⟨jobid, rfl⟩ | ⟨result, hafter⟩
        · exact .accepts hi (accepted_snoc s.trace _)
        · obtain ⟨hresult, hnone⟩ := refused_of_afterReply hafter args
          rw [hafter]
          exact .refused _ hi hresult (by simp [accepted_snoc, hnone])
    · simp at hstep
  | writeJob i =>
    simp only [approveStep] at hstep
    split at hstep
    · next copy jobid hi =>
      obtain rfl := Option.some.inj hstep
      exact .writesJob hi (by simp [accepted_snoc, Event.deployed])
    · simp at hstep
  | writeState i =>
    simp only [approveStep] at hstep
    split at hstep
    · next copy hi =>
      obtain rfl := Option.some.inj hstep
      exact .writesState hi
    · simp at hstep

end Effects

/-! ### The race for the pending row -/

section Race

variable [DecidableEq ι]

/-- The race the requests run: the row is open while it is pending. -/
def Site.race (s : Site ι) : Race ι where
  isOpen := s.row.is "pending"
  phase := fun i => (s.stage i).phase

@[simp] theorem race_put (s : Site ι) (i : ι) (stage : Stage) :
    (s.put i stage).race = { s.race with phase := Function.update s.race.phase i stage.phase } := by
  have hphase : ∀ j, (Function.update s.stage i stage j).phase =
      Function.update s.race.phase i stage.phase j := by
    intro j
    rcases eq_or_ne j i with rfl | hne
    · simp
    · simp [Function.update_of_ne hne, Site.race]
  simp only [Site.put, Site.race, Race.mk.injEq, true_and]
  exact funext hphase

/-- A request that is finished and did not deploy has lost. -/
theorem phase_finished {result : Except Raised Bool} (h : result ≠ .ok true) :
    (Stage.finished result).phase = .done false := by
  rcases result with e | _ | _
  · rfl
  · rfl
  · exact absurd rfl h

/-- The last write closes the row for later requests. -/
theorem approving_not_pending (row : Instance) :
    { row with state := "approving" }.is "pending" = false := by
  have hne : RubyString.downcase "approving" ≠ RubyString.downcase "pending" := by decide
  simpa [Instance.is] using hne

/-- **Every step is a move of the race, or leaves it as it is**; a lone load is a
lone check. -/
theorem move_of_effect {s t : Site ι} {a : ApproveStep ι} (hlone : LoneLoad s a)
    (heff : Effect s a t) :
    t.race = s.race ∨ ∃ m, Alone s.race m ∧ move s.race m = some t.race := by
  -- a request that stays where it is in the race
  have hstay : ∀ {s : Site ι} {i : ι} {stage : Stage}, stage.phase = (s.stage i).phase →
      (s.put i stage).race = s.race := by
    intro s i stage h
    have hphase : stage.phase = s.race.phase i := h
    rw [race_put, hphase, Function.update_eq_self]
  cases heff with
  | @loads i hi =>
    -- the load is the check: the test only looks at the copy
    right
    refine ⟨.check i, hlone, ?_⟩
    have hidle : s.race.phase i = .idle := by simp [Site.race, hi, Stage.phase]
    rw [move, if_pos hidle, race_put]
    rfl
  | passes hi hpending =>
    left
    apply hstay
    simp [hi, Stage.phase, hpending]
  | stops hi hpending =>
    left
    apply hstay
    simp [hi, Stage.phase, hpending]
  | @refused i copy reply result trace hi hresult htrace =>
    right
    refine ⟨.leave i false, trivial, ?_⟩
    have hin : s.race.phase i = .inside false := by simp [Site.race, hi, Stage.phase]
    simp only [move, hin, race_put, phase_finished hresult, Bool.or_self, Bool.not_false,
      Bool.and_true]
    rfl
  | @accepts i copy reply jobid trace hi htrace =>
    right
    refine ⟨.win i, trivial, ?_⟩
    have hin : s.race.phase i = .inside false := by simp [Site.race, hi, Stage.phase]
    rw [move, if_pos hin, race_put]
    rfl
  | @writesJob i copy copy' jobid trace hi htrace =>
    left
    rw [hstay]
    · rfl
    · simp [hi, Stage.phase]
  | @writesState i copy queue hi =>
    right
    refine ⟨.leave i false, trivial, ?_⟩
    have hin : s.race.phase i = .inside true := by simp [Site.race, hi, Stage.phase]
    simp only [move, hin, race_put, Bool.true_or, Bool.not_true, Bool.and_false]
    simp only [Site.race, approving_not_pending]
    rfl

end Race

/-! ### At most one deployment -/

section Once

variable [DecidableEq ι]

/-- A request that has stored its job id is a winner. -/
theorem hasWon_of_hasStored {stage : Stage} (h : stage.hasStored = true) :
    stage.phase.hasWon = true := by
  rcases stage with _ | _ | _ | _ | _ | (_ | _ | _) <;> first | rfl | simp [Stage.hasStored] at h

/-- What holds between two steps: the race is safe, and the log and the stored job
id follow the winner. -/
structure Followed (initial : Option String) (s : Site ι) : Prop where
  safe : Safe s.race
  none : (∀ i, (s.stage i).phase.hasWon = false) →
    accepted s.trace = [] ∧ s.row.jobCreatedId = initial
  replied : ∀ i copy jobid, s.stage i = .replied copy jobid → accepted s.trace = [jobid]
  stored : ∀ i, (s.stage i).hasStored = true → accepted s.trace = [s.row.jobCreatedId]

/-- A request that moves on without winning or storing leaves the log and the job
id as they are. -/
theorem Followed.quiet {initial : Option String} {s t : Site ι} (h : Followed initial s)
    (hsafe : Safe t.race) {i : ι} {stage : Stage}
    (hstage : t.stage = Function.update s.stage i stage)
    (hold : (s.stage i).phase.hasWon = false) (hnew : stage.phase.hasWon = false)
    (htrace : accepted t.trace = accepted s.trace)
    (hrow : t.row.jobCreatedId = s.row.jobCreatedId) : Followed initial t where
  safe := hsafe
  none := by
    intro hnone
    rw [htrace, hrow]
    apply h.none
    intro j
    rcases eq_or_ne j i with rfl | hne
    · exact hold
    · have hj := hnone j
      rwa [hstage, Function.update_of_ne hne] at hj
  replied := by
    intro j copy jobid hj
    rw [hstage] at hj
    rcases eq_or_ne j i with rfl | hne
    · rw [Function.update_self] at hj
      rw [hj] at hnew
      exact absurd hnew (by simp [Stage.phase])
    · rw [Function.update_of_ne hne] at hj
      rw [htrace]
      exact h.replied j copy jobid hj
  stored := by
    intro j hj
    rw [hstage] at hj
    rcases eq_or_ne j i with rfl | hne
    · rw [Function.update_self] at hj
      rw [hasWon_of_hasStored hj] at hnew
      exact absurd hnew (by decide)
    · rw [Function.update_of_ne hne] at hj
      rw [htrace, hrow]
      exact h.stored j hj

/-- Every step keeps the invariant, if its load is alone. -/
theorem Followed.step {initial : Option String} {cat : Catalogue} {s t : Site ι}
    {a : ApproveStep ι} (h : Followed initial s) (hlone : LoneLoad s a)
    (hstep : approveStep cat s a = some t) : Followed initial t := by
  have heff := effect_of_step hstep
  have hsafe : Safe t.race := by
    rcases move_of_effect hlone heff with heq | ⟨m, hm, hmove⟩
    · rw [heq]
      exact h.safe
    · exact h.safe.move hm hmove
  cases heff with
  | loads hi =>
    refine h.quiet hsafe rfl (by simp [hi, Stage.phase]) ?_ rfl rfl
    cases hpending : s.row.is "pending" <;> simp [Stage.phase, hpending]
  | passes hi hpending =>
    exact h.quiet hsafe rfl (by simp [hi, Stage.phase, hpending]) rfl rfl rfl
  | stops hi hpending =>
    exact h.quiet hsafe rfl (by simp [hi, Stage.phase, hpending]) rfl rfl rfl
  | refused trace hi hresult htrace =>
    refine h.quiet hsafe rfl (by simp [hi, Stage.phase]) ?_ htrace rfl
    rw [phase_finished hresult]
    rfl
  | @accepts i copy reply jobid trace hi htrace =>
    -- nobody has won so far: a winner would be this very request
    have hin : (s.race.phase i).isInside = true := by simp [Site.race, hi, Stage.phase]
    have hnone : ∀ j, (s.stage j).phase.hasWon = false := by
      intro j
      by_contra hj
      have hji : j = i := h.safe.eq_of_inside hin (by simpa [Site.race] using hj)
      rw [hji, hi] at hj
      exact hj rfl
    have hacc : accepted trace = [jobid] := by rw [htrace, (h.none hnone).1, List.nil_append]
    refine ⟨hsafe, fun hall => ?_, fun j copy' jobid' hj => ?_, fun j hj => ?_⟩
    · -- there is a winner now
      have hi' := hall i
      simp [Site.put, Stage.phase] at hi'
    · rcases eq_or_ne j i with rfl | hne
      · obtain ⟨rfl, rfl⟩ : copy = copy' ∧ jobid = jobid' := by simpa [Site.put] using hj
        exact hacc
      · have hj' : s.stage j = .replied copy' jobid' := by
          simpa [Site.put, Function.update_of_ne hne] using hj
        have hlost := hnone j
        rw [hj'] at hlost
        exact absurd hlost (by simp [Stage.phase])
    · rcases eq_or_ne j i with rfl | hne
      · simp [Site.put, Stage.hasStored] at hj
      · have hj' : (s.stage j).hasStored = true := by
          simpa [Site.put, Function.update_of_ne hne] using hj
        have hlost := hnone j
        rw [hasWon_of_hasStored hj'] at hlost
        exact absurd hlost (by decide)
  | @writesJob i copy copy' jobid trace hi htrace =>
    -- the one accepted job is this request's, and its id is in the row from now on
    have hacc : accepted trace = [jobid] := by rw [htrace, h.replied i copy jobid hi]
    refine ⟨hsafe, fun hall => ?_, fun j old jobid' hj => ?_, fun _ _ => hacc⟩
    · have hi' := hall i
      simp [Site.put, Stage.phase] at hi'
    · rcases eq_or_ne j i with rfl | hne
      · simp [Site.put] at hj
      · have hj' : s.stage j = .replied old jobid' := by
          simpa [Site.put, Function.update_of_ne hne] using hj
        show accepted trace = [jobid']
        rw [htrace, h.replied j old jobid' hj']
  | @writesState i copy queue hi =>
    have hacc : accepted s.trace = [s.row.jobCreatedId] := h.stored i (by rw [hi]; rfl)
    refine ⟨hsafe, fun hall => ?_, fun j old jobid' hj => ?_, fun _ _ => hacc⟩
    · have hi' := hall i
      simp [Site.put, Stage.phase] at hi'
    · rcases eq_or_ne j i with rfl | hne
      · simp [Site.put] at hj
      · exact h.replied j old jobid' (by simpa [Site.put, Function.update_of_ne hne] using hj)

/-- A winner is about to store its job id, or has stored it. -/
theorem hasWon_cases {stage : Stage} (h : stage.phase.hasWon = true) :
    (∃ copy jobid, stage = .replied copy jobid) ∨ stage.hasStored = true := by
  rcases stage with _ | copy | copy | ⟨copy, jobid⟩ | copy | (e | _ | _)
  case loaded => cases hpending : copy.is "pending" <;> simp [Stage.phase, hpending] at h
  case replied => exact Or.inl ⟨copy, jobid, rfl⟩
  all_goals first | exact Or.inr rfl | simp [Stage.phase] at h

omit [DecidableEq ι] in
/-- What the invariant says about the accepted deployments. -/
theorem Followed.deployedOnce {initial : Option String} {s : Site ι} (h : Followed initial s) :
    DeployedOnce initial s := by
  by_cases hwon : ∃ i, (s.stage i).phase.hasWon = true
  · obtain ⟨i, hi⟩ := hwon
    rcases hasWon_cases hi with ⟨copy, jobid, hrep⟩ | hstored
    · -- accepted, and the job id not written yet
      have hacc := h.replied i copy jobid hrep
      refine ⟨by simp [hacc], h.stored, fun job hjob => ?_, fun hnil => by simp [hacc] at hnil⟩
      obtain rfl : job = jobid := by simpa [hacc] using hjob
      exact Or.inl ⟨i, copy, hrep⟩
    · -- the job id is in the row
      have hacc := h.stored i hstored
      refine ⟨by simp [hacc], h.stored, fun job hjob => ?_, fun hnil => by simp [hacc] at hnil⟩
      obtain rfl : job = s.row.jobCreatedId := by simpa [hacc] using hjob
      exact Or.inr rfl
  · have hnone : ∀ i, (s.stage i).phase.hasWon = false := by
      intro i
      by_contra hi
      exact hwon ⟨i, by simpa using hi⟩
    obtain ⟨hacc, hrow⟩ := h.none hnone
    exact ⟨by simp [hacc], h.stored, fun job hjob => by simp [hacc] at hjob, fun _ => hrow⟩

/-- **At most one deployment is accepted, and its job id is the stored one**, in
every run of any number of approve requests whose loads are alone. -/
theorem deployedOnce_of_loneLoad (cat : Catalogue) {s t : Site ι} {steps : List (ApproveStep ι)}
    (hwaiting : ∀ i, s.stage i = .waiting) (hlog : s.trace = [])
    (hlone : Along (approveStep cat) LoneLoad s steps)
    (hrun : exec (approveStep cat) s steps = some t) : DeployedOnce s.row.jobCreatedId t := by
  have hstart : Followed s.row.jobCreatedId s := by
    refine ⟨safe_of_idle fun i => ?_, fun _ => ?_, fun i copy jobid hi => ?_, fun i hi => ?_⟩
    · simp [Site.race, hwaiting i, Stage.phase]
    · simp [hlog, accepted]
    · simp [hwaiting i] at hi
    · simp [hwaiting i, Stage.hasStored] at hi
  have hend : Followed s.row.jobCreatedId t :=
    exec_inv_along (fun _ _ _ h hl hs => h.step hl hs) hstart hlone hrun
  exact hend.deployedOnce

/-- The condition is the weakest one on the schedule: two requests past the guard
can both be accepted. -/
theorem two_jobs_of_overlap {cat : Catalogue} {s : Site ι} {i j : ι} (hij : i ≠ j)
    {copy copy' : Instance} {args args' : DeployArgs} (hi : s.stage i = .passed copy)
    (hj : s.stage j = .passed copy') (hargs : deployArgs cat copy = .ok args)
    (hargs' : deployArgs cat copy' = .ok args') (job job' : Option String) :
    ∃ t, exec (approveStep cat) s [.send i (.job .deploy job), .send j (.job .deploy job')] =
        some t ∧
      accepted t.trace = accepted s.trace ++ [job, job'] := by
  let first := s.trace ++ [Event.call (.deployVirtualMachine args) (.job .deploy job)]
  let second := first ++ [Event.call (.deployVirtualMachine args') (.job .deploy job')]
  refine ⟨({ s with trace := second }.put i (.replied copy job)).put j (.replied copy' job'),
    ?_, ?_⟩
  · -- the second request does not look at the row again
    have hstill : ({ s with trace := first }.put i (.replied copy job)).stage j =
        .passed copy' := by
      rw [← hj]
      exact Function.update_of_ne hij.symm _ _
    have hfirst : approveStep cat s (.send i (.job .deploy job)) =
        some ({ s with trace := first }.put i (.replied copy job)) := by
      simp [approveStep, hi, hargs, afterReply, first]
    rw [exec_cons, hfirst, Option.bind_some, exec_cons, approveStep, hstill]
    simp [hargs', afterReply, Site.put, second]
  · simp [accepted, Event.deployed, Site.put, first, second]

end Once

/-! ### The condition is needed -/

/-- The offerings and the template of `pendingSite`. -/
def smallCatalogue : Catalogue :=
  ⟨[⟨1, some "tpl-1", none, none, none, none⟩], [],
    [⟨1, some "so-1", some 1, some 1000, some 512, none, none⟩]⟩

/-- A pending row and two approve requests on it. -/
def pendingSite : Site Bool where
  row := { id := 1, userId := some 7, serviceOfferingId := some 1, templateId := some 1,
           name := "an-desk", displayname := "desk" }
  stage := fun _ => .waiting
  trace := []
  queue := []

/-- Both requests load the row before either has written its state. -/
def bothLoad : List (ApproveStep Bool) :=
  [.load false, .test false, .load true, .test true,
   .send false (.job .deploy (some "21")), .send true (.job .deploy (some "22")),
   .writeJob false, .writeJob true, .writeState false, .writeState true]

/-- Two clicks: two deployments are accepted, and the first job id is lost. -/
theorem two_deployments_of_two_clicks :
    (exec (approveStep smallCatalogue) pendingSite bothLoad).map
        (fun t => (accepted t.trace, t.row.jobCreatedId)) =
      some ([some "21", some "22"], some "22") ∧
    ¬ ∀ t, exec (approveStep smallCatalogue) pendingSite bothLoad = some t →
      DeployedOnce none t := by
  have hrun : (exec (approveStep smallCatalogue) pendingSite bothLoad).map
      (fun t => (accepted t.trace, t.row.jobCreatedId)) =
        some ([some "21", some "22"], some "22") := by decide
  refine ⟨hrun, fun hall => ?_⟩
  obtain ⟨t, ht, hpair⟩ := Option.map_eq_some_iff.mp hrun
  have honce := (hall t ht).once
  rw [(Prod.mk.inj hpair).1] at honce
  exact absurd honce (by decide)

/-- Two requests, the second after the first has finished. -/
def oneAfterTheOther : List (ApproveStep Bool) :=
  oneRequest false (.job .deploy (some "21")) ++ [.load true, .test true]

/-- The second request finds the row closed, and one deployment is accepted. -/
theorem deployedOnce_of_oneAfterTheOther :
    ∃ t, exec (approveStep smallCatalogue) pendingSite oneAfterTheOther = some t ∧
      DeployedOnce none t := by
  have hlone : Along (approveStep smallCatalogue) LoneLoad pendingSite oneAfterTheOther := by
    decide
  refine ⟨_, rfl, ?_⟩
  exact deployedOnce_of_loneLoad smallCatalogue (fun _ => rfl) rfl hlone rfl

end BkPlatform.Portal
