import BkPlatform.Lib.Run
import BkPlatform.Portal.Polls
import BkPlatform.Portal.Statements

/-!
# Who controls a virtual machine

The routes of `InstancesController` under its before filters, for anonymous
visitors, signed-in users and administrators.  Three filters guard the actions:

* `is_admin` — only `approve`;
* `is_user` — `show` and `viewSpiceWebSock`, and runs before `setup_cas_user`;
* `setup_cas_user` — everything but `approve`; it signs a visitor in, and turns
  nobody away.

So `start`, `shutdown` and `remove` are open to everybody, and no action compares
the visitor with the owner of the row: an owner's command reaches the cloud only
with those of anybody else (`commanded_by_anyone`).  A deployment does need an
administrator.

## Main definitions

* `Session`, `RouteAction`, `beforeFilters`, `RouteAction.run` — a request.
* `PortalState`, `Visit`, `visit` — the portal, and a request or a worker run on it.
* `Authorized` — a command has been sent for the owner or an administrator.
* `OwnerOrAdmin` — the condition on a request.

## Main results

* `authorized_of_ownerOrAdmin` — **a deployment is sent only for an administrator**,
  and the other commands are sent only for the owner or an administrator in every
  run whose requests meet the condition.
* `commanded_by_anyone` — without it, any visitor's request reaches the cloud.
-/

namespace BkPlatform.Portal

open Eff RubyString

/-! ### Requests -/

/-- The columns of `users` that are read here. -/
structure User where
  id : ℕ
  email : String
  deriving DecidableEq, Repr

/-- The session a request comes with. -/
structure Session where
  /-- `current_user`. -/
  user : Option ℕ := none
  /-- `admin_signed_in?`. -/
  admin : Bool := false
  /-- `session[:cas_user]`. -/
  casUser : Option String := none
  deriving DecidableEq, Repr

/-- The member routes of an instance. -/
inductive RouteAction
  | approve
  | start
  | shutdown
  | remove
  | show
  | viewSpiceWebSock
  | sendMail
  deriving DecidableEq, Repr

/-- `setup_cas_user`: sign in the user the CAS session names, unless one is. -/
def setupCasUser (users : List User) (session : Session) : Session :=
  match session.casUser with
  | none => session
  | some email =>
    if isBlank email || session.user.isSome then session
    else
      match users.find? fun u => u.email == email with
      | none => session
      | some u => { session with user := some u.id }

/-- The before filters, in their order: the session the action runs in, or `none`
if a filter redirects. -/
def beforeFilters (users : List User) (action : RouteAction) (session : Session) :
    Option Session :=
  if action = .approve then
    -- `is_admin`
    if session.admin then some session else none
  else if (action = .show || action = .viewSpiceWebSock) && session.user.isNone then
    -- `is_user`, before the CAS session has been looked at
    none
  else
    some (setupCasUser users session)

/-- What an action does to the instance it has found.  `viewSpiceWebSock` looks for
the proxy process on the portal's own host, and `send_mail` enqueues a mail. -/
def RouteAction.run : RouteAction → Action Unit
  | .approve => do let _ ← deploy
  | .start => do let _ ← Portal.start
  | .shutdown => do let _ ← stop false
  | .remove => do let _ ← destroyVm
  | .show => do
    let created ← isCreated
    if created then
      let _ ← updateState
    else
      pure ()
  | .viewSpiceWebSock => pure ()
  | .sendMail => pure ()

/-- The command an action is there for. -/
def RouteAction.command : RouteAction → Option Command
  | .approve => some .deploy
  | .start => some .start
  | .shutdown => some .stop
  | .remove => some .destroy
  | .show => none
  | .viewSpiceWebSock => none
  | .sendMail => none

/-! ### The portal -/

/-- A command sent to the cloud: for which row, and as the effect of whose request;
a worker has no visitor. -/
structure Sent where
  visitor : Option Session
  row : Instance
  command : Command
  deriving DecidableEq, Repr

/-- The portal: its tables, its queue and the commands it has sent. -/
structure PortalState where
  users : List User
  catalogue : Catalogue
  rows : List Instance
  queue : List Job := []
  mails : List Instance := []
  log : List Sent := []
  deriving DecidableEq, Repr

/-- `Instance.find`. -/
def PortalState.find (p : PortalState) (id : ℕ) : Option Instance :=
  p.rows.find? fun r => r.id == id

/-- The command an entry of the log of calls has sent. -/
def Event.sent : Event → Option Command
  | .call req _ => req.command
  | .stored _ _ _ => none

/-- The world a method runs in on a row of the portal. -/
def PortalState.world (p : PortalState) (row : Instance) (replies : List Reply)
    (ssh : List SshReply) : World where
  row := row
  catalogue := p.catalogue
  otherNames := (p.rows.filter fun r => r.id != row.id).map Instance.name
  replies := replies
  ssh := ssh
  trace := []
  queue := p.queue

/-- Run a method on the row with this id, as the effect of a request of `visitor`. -/
def PortalState.runOn (p : PortalState) (id : ℕ) (visitor : Option Session) (x : Action Unit)
    (replies : List Reply) (ssh : List SshReply) : PortalState :=
  match p.find id with
  | none => p
  | some row =>
    let w := (Eff.run x (p.world row replies ssh)).2
    { p with
      rows := p.rows.map fun r => if r.id = id then w.row else r
      queue := w.queue
      log := p.log ++ (w.trace.filterMap Event.sent).map fun cmd => ⟨visitor, row, cmd⟩ }

/-- An HTTP request, or a worker taking a queued job, with what the outside answers. -/
inductive Visit
  | request (session : Session) (action : RouteAction) (id : ℕ) (replies : List Reply)
  | work (id : ℕ) (job : Job) (replies : List Reply) (ssh : List SshReply)
  deriving DecidableEq, Repr

/-- One request or worker run. -/
def visit (p : PortalState) : Visit → PortalState
  | .request session action id replies =>
    match beforeFilters p.users action session with
    | none => p
    | some session =>
      let p := p.runOn id (some session) action.run replies []
      if action = .sendMail then { p with mails := p.mails ++ (p.find id).toList } else p
  | .work id job replies ssh => p.runOn id none (perform job) replies ssh

/-- The visitor is an administrator, or the user the row belongs to. -/
def Session.controls (v : Session) (row : Instance) : Bool :=
  v.admin || (v.user.isSome && v.user == row.userId)

/-- A deployment has been sent for an administrator, any other command for one or
for the owner of the instance. -/
def Authorized (e : Sent) : Prop :=
  match e.command with
  | .deploy => ∃ v, e.visitor = some v ∧ v.admin = true
  | _ => ∃ v, e.visitor = some v ∧ v.controls e.row = true

/-- A request for `start`, `shutdown` or `remove` on an instance with a deployment job
comes from its owner or an administrator. -/
def OwnerOrAdmin (p : PortalState) : Visit → Prop
  | .request session action id _ =>
    action = .start ∨ action = .shutdown ∨ action = .remove →
      ∀ row, p.find id = some row → row.jobCreatedId.isSome = true →
        (setupCasUser p.users session).controls row = true
  | .work _ _ _ _ => True

/-! ### The commands a method sends -/

/-- Only commands satisfying `C` have been sent. -/
def Sends (C : Command → Prop) (w : World) : Prop := ∀ e ∈ w.trace, ∀ cmd ∈ e.sent, C cmd

variable {C : Command → Prop}

theorem Sends.afterCall {w : World} (h : Sends C w) {req : Request}
    (hreq : ∀ cmd ∈ req.command, C cmd) : Sends C (w.afterCall req) := by
  intro e he
  rcases List.mem_append.mp he with hold | hnew
  · exact h e hold
  · obtain rfl := List.mem_singleton.mp hnew
    exact hreq

theorem Sends.afterQuery {w : World} (h : Sends C w) {req : Request} (hreq : req.command = none) :
    Sends C (w.afterCall req) :=
  h.afterCall fun cmd hcmd => by simp [hreq] at hcmd

/-- A property that asking the cloud and writing the listed state keep. -/
structure Refreshed (R : World → Prop) : Prop where
  query : ∀ w req, req.command = none → R w → R (w.afterCall req)
  state : ∀ w state, R w → R { w with row := { w.row with state := state } }

theorem refreshed_job {K : Prop} :
    Refreshed fun w => Sends C w ∧ (w.row.jobCreatedId.isSome = true → K) :=
  ⟨fun _ _ hreq hw => ⟨hw.1.afterQuery hreq, hw.2⟩, fun _ _ hw => hw⟩

/-- Storing a job id sends nothing. -/
theorem Sends.stored {w : World} (h : Sends C w) {e : Event} (he : e.sent = none) :
    ∀ e' ∈ w.trace ++ [e], ∀ cmd ∈ e'.sent, C cmd := by
  intro e' he' cmd hcmd
  rcases List.mem_append.mp he' with hold | hnew
  · exact h e' hold cmd hcmd
  · obtain rfl := List.mem_singleton.mp hnew
    rw [he] at hcmd
    exact absurd hcmd (by simp)

/-- **What a statement can send**: a command its limits and the row allow.  `K` is what a
deployment job of the row vouches for. -/
theorem sends_does {M : May} {K : Prop}
    (hC : ∀ (row : Instance) req cmd, M.send req → req.Allowed row → req.command = some cmd →
      (row.jobCreatedId.isSome = true → K) → C cmd)
    (hK : ∀ args, M.send (.deployVirtualMachine args) → K) {w w' : World}
    (hw : Sends C w ∧ (w.row.jobCreatedId.isSome = true → K)) (hdoes : Does M w w') :
    Sends C w' ∧ (w'.row.jobCreatedId.isSome = true → K) := by
  cases hdoes with
  | @calls req hreq hallowed =>
    rcases hreq with hquery | hsend
    · exact refreshed_job.query w req hquery hw
    · refine ⟨hw.1.afterCall fun cmd hcmd => ?_, hw.2⟩
      exact hC w.row req cmd hsend hallowed hcmd hw.2
  | lists hcall hs => exact refreshed_job.state w _ hw
  | marks hs => exact refreshed_job.state w _ hw
  | creates hjob hopen hcall hrow => exact ⟨hw.1, fun _ => hw.2 (by rw [hjob]; rfl)⟩
  | stores hcmd hs => exact ⟨hw.1.stored rfl, hw.2⟩
  | approves hargs hpending hcall => exact ⟨hw.1.stored rfl, fun _ => hK _ hargs⟩
  | scripts ssh => exact hw
  | enqueues hjob => exact hw
  | addresses hostname port => exact hw

/-- The workers send no command. -/
theorem sends_perform (job : Job) : Keeps (Sends C) (perform job) := by
  have hsteps : Keeps (fun w => Sends C w ∧ (w.row.jobCreatedId.isSome = true → True))
      (perform job) :=
    Keeps.of_steps (after_run (.perform job)) fun _ _ hdoes hw =>
      sends_does (fun _ _ _ hsend => False.elim hsend) (fun _ _ => trivial) hw hdoes
  exact hsteps.weaken (fun _ hw => ⟨hw, fun _ => trivial⟩) (fun _ _ hw => hw.1) fun _ hw => hw.1

/-- The limits of an action. -/
def RouteAction.may : RouteAction → May
  | .approve => Op.deploy.may
  | .start => Op.start.may
  | .shutdown => (Op.stop false).may
  | .remove => Op.destroyVm.may
  | .show => .nothing
  | .viewSpiceWebSock => .nothing
  | .sendMail => .nothing

/-- **Every action is made of the statements**, within its limits. -/
theorem after_action (action : RouteAction) (w₀ : World) :
    Keeps (After action.may w₀) action.run := by
  cases action with
  | approve => exact after_run .deploy w₀
  | start => exact after_run .start w₀
  | shutdown => exact after_run (.stop false) w₀
  | remove => exact after_run .destroyVm w₀
  | «show» =>
    apply Keeps.bind (after_isCreated.post fun _ w hw => hw.1)
    intro created
    exact Keeps.ite (fun _ => Keeps.bind after_poll fun _ => Keeps.pure) fun _ => Keeps.pure
  | viewSpiceWebSock => exact Keeps.pure
  | sendMail => exact Keeps.pure

/-- An action sends its own command, and for all but `approve` only for an instance with a
deployment job. -/
theorem RouteAction.allowed {action : RouteAction} {row : Instance} {req : Request}
    {cmd : Command} (hsend : action.may.send req) (hallowed : req.Allowed row)
    (hcmd : req.command = some cmd) :
    action.command = some cmd ∧ (action = .approve ∧ cmd = .deploy ∨
      row.jobCreatedId.isSome = true) := by
  cases action with
  | approve =>
    cases req with
    | deployVirtualMachine args =>
      obtain rfl := Option.some.inj hcmd
      exact ⟨rfl, Or.inl ⟨rfl, rfl⟩⟩
    | _ => exact False.elim hsend
  | start =>
    cases req with
    | startVirtualMachine id => exact ⟨hcmd, Or.inr hallowed⟩
    | _ => exact False.elim hsend
  | shutdown =>
    cases req with
    | stopVirtualMachine id forced =>
      obtain rfl : forced = false := hsend
      exact ⟨hcmd, Or.inr (hallowed.resolve_left (by decide))⟩
    | _ => exact False.elim hsend
  | remove =>
    cases req with
    | destroyVirtualMachine id => exact ⟨hcmd, Or.inr hallowed⟩
    | _ => exact False.elim hsend
  | «show» => exact False.elim hsend
  | viewSpiceWebSock => exact False.elim hsend
  | sendMail => exact False.elim hsend

/-- What an action may send: its own command, and for all but `approve` only for an
instance with a deployment job. -/
theorem sends_run {action : RouteAction} :
    Triple (fun w => Sends C w ∧ ∀ cmd, action.command = some cmd →
        cmd = .deploy ∨ w.row.jobCreatedId.isSome = true → C cmd)
      action.run (fun _ => Sends C) (Sends C) := by
  intro w₀ hw₀
  -- a job of the row is there from the beginning, or that of the approval
  let K := action = .approve ∨ w₀.row.jobCreatedId.isSome = true
  have hdoes : ∀ w w', Does action.may w w' →
      Sends C w ∧ (w.row.jobCreatedId.isSome = true → K) →
        Sends C w' ∧ (w'.row.jobCreatedId.isSome = true → K) := by
    intro w w' hdoes hw
    refine sends_does (fun row req cmd hsend hallowed hcmd hvouch => ?_) ?_ hw hdoes
    · obtain ⟨haction, hjob⟩ := RouteAction.allowed hsend hallowed hcmd
      refine hw₀.2 cmd haction ?_
      rcases hjob with ⟨-, hdeploy⟩ | hjob
      · exact Or.inl hdeploy
      · rcases hvouch hjob with happrove | hjob₀
        · rw [happrove] at haction
          exact Or.inl (Option.some.inj haction).symm
        · exact Or.inr hjob₀
    · intro args hsend
      cases action with
      | approve => exact Or.inl rfl
      | _ => exact False.elim hsend
  have hrun : Keeps (fun w => Sends C w ∧ (w.row.jobCreatedId.isSome = true → K)) action.run :=
    Keeps.of_steps (after_action action) hdoes
  exact (hrun.weaken (fun _ hw => hw) (fun _ _ hw => hw.1) fun _ hw => hw.1) w₀
    ⟨hw₀.1, fun hjob => Or.inr hjob⟩

/-! ### What a visit sends -/

/-- A new entry of the log is a command the method may send on the row found. -/
theorem mem_log_runOn {p : PortalState} {id : ℕ} {visitor : Option Session} {x : Action Unit}
    {replies : List Reply} {ssh : List SshReply} {K : Instance → Command → Prop}
    (hx : ∀ w, w.trace = [] → Sends (K w.row) (run x w).2) {e : Sent}
    (he : e ∈ (p.runOn id visitor x replies ssh).log) :
    e ∈ p.log ∨ (p.find id = some e.row ∧ e.visitor = visitor ∧ K e.row e.command) := by
  unfold PortalState.runOn at he
  cases hfind : p.find id with
  | none =>
    rw [hfind] at he
    exact Or.inl he
  | some row =>
    rw [hfind] at he
    rcases List.mem_append.mp he with hold | hnew
    · exact Or.inl hold
    · -- the calls of the method are the commands in its own log, which began empty
      obtain ⟨cmd, hcmd, rfl⟩ := List.mem_map.mp hnew
      obtain ⟨entry, hentry, hsent⟩ := List.mem_filterMap.mp hcmd
      exact Or.inr ⟨rfl, rfl, hx (p.world row replies ssh) rfl entry hentry cmd hsent⟩

/-- **What one visit can add to the log**: a command of the action requested, past the
filters; for all but a deployment, on an instance with a deployment job. -/
theorem mem_log_visit {p : PortalState} {v : Visit} {e : Sent} (he : e ∈ (visit p v).log) :
    e ∈ p.log ∨ ∃ session action id replies session',
      v = .request session action id replies ∧
      beforeFilters p.users action session = some session' ∧
      p.find id = some e.row ∧ e.visitor = some session' ∧ action.command = some e.command ∧
      (e.command = .deploy ∨ e.row.jobCreatedId.isSome = true) := by
  cases v with
  | work id job replies ssh =>
    -- a worker only polls
    have hno : ∀ w : World, w.trace = [] → Sends (fun _ => False) (run (perform job) w).2 := by
      intro w hw
      refine (sends_perform job).state ?_
      intro entry hentry
      rw [hw] at hentry
      exact absurd hentry List.not_mem_nil
    rcases mem_log_runOn (K := fun _ _ => False) hno he with hold | ⟨-, -, hfalse⟩
    · exact Or.inl hold
    · exact hfalse.elim
  | request session action id replies =>
    simp only [visit] at he
    split at he
    · exact Or.inl he
    · next session' hfilter =>
      have hrun : ∀ w : World, w.trace = [] →
          Sends (fun cmd => action.command = some cmd ∧
            (cmd = .deploy ∨ w.row.jobCreatedId.isSome = true)) (run action.run w).2 := by
        intro w hw
        refine (sends_run (C := fun cmd => action.command = some cmd ∧
          (cmd = .deploy ∨ w.row.jobCreatedId.isSome = true))).state
            ⟨fun entry hentry => ?_, fun cmd hcmd hjob => ⟨hcmd, hjob⟩⟩
        rw [hw] at hentry
        exact absurd hentry List.not_mem_nil
      -- the mail is no entry of the log
      have hlog : e ∈ (p.runOn id (some session') action.run replies []).log := by
        by_cases hmail : action = .sendMail
        · rwa [if_pos hmail] at he
        · rwa [if_neg hmail] at he
      rcases mem_log_runOn (K := fun row cmd => action.command = some cmd ∧
          (cmd = .deploy ∨ row.jobCreatedId.isSome = true)) hrun hlog with
        hold | ⟨hfind, hvisitor, hcmd, hjob⟩
      · exact Or.inl hold
      · exact Or.inr
          ⟨session, action, id, replies, session', rfl, hfilter, hfind, hvisitor, hcmd, hjob⟩

/-- A deployment is sent for an administrator. -/
theorem authorized_deploy {p : PortalState} {v : Visit} {e : Sent} (he : e ∈ (visit p v).log)
    (hnew : e ∉ p.log) (hdeploy : e.command = .deploy) : Authorized e := by
  rcases mem_log_visit he with
    hold | ⟨session, action, id, replies, session', -, hfilter, -, hvisitor, hcmd, -⟩
  · exact absurd hold hnew
  · rw [hdeploy] at hcmd
    -- only `approve` sends one, and `is_admin` stands before it
    obtain rfl : action = .approve := by cases action <;> simp_all [RouteAction.command]
    have hadmin : session.admin = true ∧ session = session' := by
      simpa [beforeFilters] using hfilter
    obtain ⟨hadmin, rfl⟩ := hadmin
    unfold Authorized
    rw [hdeploy]
    exact ⟨session, hvisitor, hadmin⟩

/-- Under the condition every command is sent for somebody who controls the row. -/
theorem authorized_visit {p : PortalState} {v : Visit} {e : Sent} (hv : OwnerOrAdmin p v)
    (he : e ∈ (visit p v).log) (hnew : e ∉ p.log) : Authorized e := by
  rcases mem_log_visit he with
    hold | ⟨session, action, id, replies, session', rfl, hfilter, hfind, hvisitor, hcmd, hjob⟩
  · exact absurd hold hnew
  by_cases hdeploy : e.command = .deploy
  · exact authorized_deploy he hnew hdeploy
  · -- only the three open actions send the other commands
    have haction : action = .start ∨ action = .shutdown ∨ action = .remove := by
      cases action <;> simp_all [RouteAction.command]
    have hsession : session' = setupCasUser p.users session := by
      rcases haction with rfl | rfl | rfl <;> simpa [beforeFilters] using hfilter.symm
    have hcontrols := hv haction e.row hfind (hjob.resolve_left hdeploy)
    unfold Authorized
    split
    · next h => exact absurd h hdeploy
    · refine ⟨session', hvisitor, ?_⟩
      rw [hsession]
      exact hcontrols

/-- **In every run of requests and workers a deployment is sent only for an
administrator; if every request to start, shut down or remove a created instance is
its owner's or an administrator's, every command is sent for one of them.** -/
theorem authorized_of_ownerOrAdmin {p : PortalState} (hlog : p.log = []) (visits : List Visit) :
    (∀ e ∈ (visits.foldl visit p).log, e.command = .deploy → Authorized e) ∧
    (Run.Along (Run.total visit) OwnerOrAdmin p visits →
      ∀ e ∈ (visits.foldl visit p).log, Authorized e) := by
  constructor
  · refine Run.foldl_inv
      (I := fun p : PortalState => ∀ e ∈ p.log, e.command = .deploy → Authorized e) ?_ ?_ visits
    · intro p v hp e he hdeploy
      by_cases hold : e ∈ p.log
      · exact hp e hold hdeploy
      · exact authorized_deploy he hold hdeploy
    · rw [hlog]
      exact fun e he => absurd he List.not_mem_nil
  · intro halong
    refine Run.foldl_inv_along (I := fun p : PortalState => ∀ e ∈ p.log, Authorized e) ?_ ?_ halong
    · intro p v hp hv e he
      by_cases hold : e ∈ p.log
      · exact hp e hold
      · exact authorized_visit hv he hold
    · rw [hlog]
      exact fun e he => absurd he List.not_mem_nil

/-! ### The condition is needed -/

/-- The world after a list has been read and its state stored. -/
def World.refreshed (w : World) (state : String) : World :=
  { w with row := { w.row with state := state }, replies := w.replies.tail,
           trace := w.trace ++ [.call (.listVirtualMachines w.row.instanceId) (listing state)] }

theorem World.refreshed_is (w : World) (listed state : String) :
    (w.refreshed listed).row.is state = (downcase listed == downcase state) := rfl

/-- Refreshing the state of a valid row that is not destroyed. -/
theorem run_updateState_listing {w : World} {state : String} {rest : List Reply}
    (hreplies : w.replies = listing state :: rest) (hlive : w.row.is "destroyed" = false)
    (hvalid : w.holds = true) : run updateState w = (.ok (some state), w.refreshed state) := by
  have hanswer : w.answer = .listVirtualMachines [⟨some "vm-1", some state, none⟩] := by
    rw [World.answer, hreplies]
    rfl
  have hnext : (w.afterCall (.listVirtualMachines w.row.instanceId)).withState state =
      w.refreshed state := by
    rw [World.afterCall, hreplies, World.refreshed, hreplies]
    rfl
  rw [run_updateState, hlive, if_neg (by decide), hanswer]
  simp only [hvalid, if_true, hnext]

/-- A created row that is listed twice, in a state in which it is not going away. -/
theorem run_isCreated_listing {w : World} {state : String} {rest : List Reply} {job : String}
    (hreplies : w.replies = listing state :: rest) (hjob : w.row.jobCreatedId = some job)
    (htrue : toBool job = true) (hstate : w.row.state = state)
    (hthere : downcase state ≠ downcase "destroying" ∧ downcase state ≠ downcase "destroyed")
    (hvalid : w.holds = true) : run isCreated w = (.ok true, w.refreshed state) := by
  have hgoing : w.row.going = false := by simp [Instance.going, Instance.is, hstate, hthere]
  have hgoing' : (w.refreshed state).row.going = false := by
    simp [Instance.going, Instance.is, World.refreshed, hthere]
  have hlive : w.row.is "destroyed" = false := by simp [Instance.is, hstate, hthere]
  rw [run_isCreated, hjob]
  simp only [htrue, if_true]
  rw [run_stillThere, hgoing, if_neg (by decide), run_updateState_listing hreplies hlive hvalid]
  simp only [hgoing', Bool.not_false]

/-- A command to which no answer comes. -/
theorem run_sendCommand_unanswered {w : World} (hreplies : w.replies = [])
    (req : Instance → Request) (cmd : Command) (forced : Bool) (state : String)
    (later : Option Worker) :
    run (sendCommand req cmd forced state later) w = (.ok false, w.afterCall (req w.row)) := by
  unfold sendCommand
  simp [run_bind, self, postRequest, hreplies, World.afterCall]

/-- The state in which an open action sends its command. -/
def RouteAction.readyState : RouteAction → String
  | .start => "Stopped"
  | _ => "Running"

/-- On a created row that is listed twice in the right state, an open action sends its
command, whether or not it is answered. -/
theorem sent_run {action : RouteAction} {w : World} {cmd : Command} {job : String}
    (haction : action = .start ∨ action = .shutdown ∨ action = .remove)
    (hcmd : action.command = some cmd)
    (hreplies : w.replies = [listing action.readyState, listing action.readyState])
    (htrace : w.trace = []) (hlive : w.row.is "destroyed" = false)
    (hjob : w.row.jobCreatedId = some job) (htrue : toBool job = true)
    (hvalid : w.row.valid w.catalogue w.otherNames = true) :
    (run action.run w).2.trace.filterMap Event.sent = [cmd] := by
  -- the list is read twice: by the action itself, and by `isCreated`
  let w₁ := w.refreshed action.readyState
  let w₂ := w₁.refreshed action.readyState
  have hupdate : run updateState w = (.ok (some action.readyState), w₁) :=
    run_updateState_listing hreplies hlive hvalid
  have hcreated : run isCreated w₁ = (.ok true, w₂) := by
    have hreplies₁ : w₁.replies = [listing action.readyState] := by
      simp [w₁, World.refreshed, hreplies]
    refine run_isCreated_listing hreplies₁ hjob htrue rfl ?_ hvalid
    rcases haction with rfl | rfl | rfl <;> decide
  have hreplies₂ : w₂.replies = [] := by simp [w₁, w₂, World.refreshed, hreplies]
  have htrace₂ : w₂.trace.filterMap Event.sent = [] := by
    simp [w₁, w₂, World.refreshed, htrace, Event.sent, Request.command]
  have hsent : ∀ req : Request, req.command = some cmd →
      (w₂.afterCall req).trace.filterMap Event.sent = [cmd] := by
    intro req hreq
    simp [World.afterCall, htrace₂, Event.sent, hreq]
  rcases haction with rfl | rfl | rfl
  · -- `canStart?` finds the machine stopped
    have hstate : w₂.row.is "stopped" = true := by
      rw [World.refreshed_is]
      decide
    have hrun := run_sendCommand_unanswered hreplies₂ (fun r => .startVirtualMachine r.instanceId)
      .start false "starting" (some .vmStart)
    have hall : run RouteAction.start.run w =
        (.ok (), w₂.afterCall (.startVirtualMachine w₂.row.instanceId)) := by
      simp [RouteAction.run, Portal.start, canStart, run_bind, hupdate, hcreated, self, hstate,
        hrun]
    rw [hall]
    exact hsent _ hcmd
  · -- `canStop?` finds it running
    have hstate : w₂.row.is "running" = true := by
      rw [World.refreshed_is]
      decide
    have hrun := run_sendCommand_unanswered hreplies₂
      (fun r => .stopVirtualMachine r.instanceId false) .stop false "stopping" (some .vmStop)
    have hall : run RouteAction.shutdown.run w =
        (.ok (), w₂.afterCall (.stopVirtualMachine w₂.row.instanceId false)) := by
      simp [RouteAction.run, stop, canStop, run_bind, hupdate, hcreated, self, hstate, hrun]
    rw [hall]
    exact hsent _ hcmd
  · -- `canDestroy?` finds it neither destroyed nor on its way
    have hgoing : w₁.row.is "destroying" = false ∧ w₁.row.is "destroyed" = false := by
      rw [World.refreshed_is, World.refreshed_is]
      decide
    have hrun := run_sendCommand_unanswered hreplies₂
      (fun r => .destroyVirtualMachine r.instanceId) .destroy false "Destroying" (some .vmDestroy)
    have hall : run RouteAction.remove.run w =
        (.ok (), w₂.afterCall (.destroyVirtualMachine w₂.row.instanceId)) := by
      simp [RouteAction.run, destroyVm, canDestroy, run_bind, hupdate, hcreated, self, hgoing, hrun]
    rw [hall]
    exact hsent _ hcmd

/-- **Anybody's request for an open action reaches the cloud**: for every session, on
every created, valid row that is not destroyed, there are answers with which the
command is sent. -/
theorem commanded_by_anyone {p : PortalState} {id : ℕ} {row : Instance} {action : RouteAction}
    {cmd : Command} {job : String} (session : Session)
    (haction : action = .start ∨ action = .shutdown ∨ action = .remove)
    (hcmd : action.command = some cmd) (hfind : p.find id = some row)
    (hlive : row.is "destroyed" = false) (hjob : row.jobCreatedId = some job)
    (htrue : toBool job = true)
    (hvalid : row.valid p.catalogue
      ((p.rows.filter fun r => r.id != row.id).map Instance.name) = true) :
    ∃ replies, (visit p (.request session action id replies)).log =
      p.log ++ [⟨some (setupCasUser p.users session), row, cmd⟩] := by
  refine ⟨[listing action.readyState, listing action.readyState], ?_⟩
  have hpass : beforeFilters p.users action session = some (setupCasUser p.users session) := by
    rcases haction with rfl | rfl | rfl <;> rfl
  have hmail : action ≠ .sendMail := by rcases haction with rfl | rfl | rfl <;> decide
  have hsent := sent_run
    (w := p.world row [listing action.readyState, listing action.readyState] [])
    haction hcmd rfl rfl hlive hjob htrue hvalid
  simp [visit, hpass, hmail, PortalState.runOn, hfind, hsent]

/-- A created instance of user 7. -/
def ownedRow : Instance :=
  { id := 1, userId := some 7, instanceId := some "vm-1", jobCreatedId := some "1",
    serviceOfferingId := some 1, templateId := some 1, name := "an-desk",
    displayname := "desk", state := "Stopped" }

/-- A portal with that user and that instance. -/
def smallPortal : PortalState where
  users := [⟨7, "an@example.org"⟩]
  catalogue := ⟨[], [], [⟨1, some "so-1", some 1, some 1000, some 512, some false, none⟩]⟩
  rows := [ownedRow]

/-- `GET /instances/1/start` without any session. -/
def anonymousStart : Visit :=
  .request {} .start 1 [listing "Stopped", listing "Stopped", .job .start (some "31")]

/-- An anonymous visitor starts somebody else's machine. -/
theorem started_by_anonymous :
    ∃ e ∈ (visit smallPortal anonymousStart).log,
      e.command = .start ∧ e.visitor = some {} ∧ ¬ Authorized e := by
  have hlog : (visit smallPortal anonymousStart).log =
      [⟨some {}, ownedRow, .start⟩] := by decide
  rw [hlog]
  refine ⟨_, List.mem_singleton_self _, rfl, rfl, ?_⟩
  rintro ⟨v, hv, hcontrols⟩
  obtain rfl := Option.some.inj hv
  exact absurd hcontrols (by decide)

/-- The owner, signed in over the CAS session, starts the machine. -/
def ownerStart : Visit :=
  .request { casUser := some "an@example.org" } .start 1
    [listing "Stopped", listing "Stopped", .job .start (some "31")]

/-- The owner's start is sent for the owner. -/
theorem authorized_of_ownerStart :
    (visit smallPortal ownerStart).log.length = 1 ∧
    ∀ e ∈ (visit smallPortal ownerStart).log, Authorized e := by
  have hcondition : OwnerOrAdmin smallPortal ownerStart := by
    intro _ row hfind _
    obtain rfl := Option.some.inj hfind
    decide
  refine ⟨by decide, ?_⟩
  exact (authorized_of_ownerOrAdmin (p := smallPortal) rfl [ownerStart]).2
    ⟨hcondition, fun _ _ => trivial⟩

end BkPlatform.Portal
