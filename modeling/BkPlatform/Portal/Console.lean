import BkPlatform.Lib.Run
import BkPlatform.Portal.Binding
import BkPlatform.Portal.Commands

/-!
# The console flag

`isSPICE?` tests the two columns of the address as they are.  The schema gives both the
empty string and allows no null, and the empty string is true in a condition: the flag is
up from the moment the row is created.

Nor does anything take it down again.  `VNCToSPICEProtocol` writes the address, and no
other method touches it, a stop and the next start included.

## Main definitions

* `isSpice` — the flag.
* `Console` — the row, and whether it has been switched to SPICE since its last start.
* `Truthful` — the flag is up only where it has.

## Main results

* `truthful_never` — **the flag is truthful in no run.**
* `address_kept` — only `VNCToSPICEProtocol` writes the address.
-/

namespace BkPlatform.Portal

open Eff RubyString

/-- A string in a condition: only nil and false are not true. -/
def truthy (_ : String) : Bool := true

/-- `isSPICE?`; neither column may hold a null. -/
def isSpice (i : Instance) : Bool := truthy i.hostname && truthy i.port

/-! ### The history of the console -/

/-- The method returns true. -/
def agrees (x : Action Bool) (w : World) : Bool :=
  match (run x w).1 with
  | .ok b => b
  | .error _ => false

/-- The operation starts the machine. -/
def World.boots (w : World) : Op → Bool
  | .deploy => agrees deploy w
  | .start => agrees start w
  | _ => false

/-- A call of `VNCToSPICEProtocol` succeeds during the operation: it is called by itself, or
by a worker that has seen the machine run. -/
def World.switches (w : World) : Op → Bool
  | .vncToSpiceProtocol => agrees vncToSpiceProtocol w
  | .perform ⟨.vmDeploy, snapshot⟩ =>
    match run isCreated w with
    | (.ok created, w') =>
      (created || snapshot.state == "error") && agrees vncToSpiceProtocol w'
    | (.error _, _) => false
  | .perform ⟨.vmStart, _⟩ =>
    match run updateState w with
    | (.ok (some s), w') => downcase s == "running" && agrees vncToSpiceProtocol w'
    | _ => false
  | _ => false

/-- The row, and whether it has been switched to SPICE since it was last started or
deployed. -/
structure Console where
  world : World
  switched : Bool := false

/-- One operation. -/
def Console.after (s : Console) (c : Call) : Console :=
  let w := { s.world with replies := c.replies, ssh := c.ssh }
  { world := operate s.world c
    switched := w.switches c.op || (s.switched && !w.boots c.op) }

/-- The flag is up only if the console has been switched. -/
def Console.Truthful (s : Console) : Prop := isSpice s.world.row = true → s.switched = true

/-- It is so in every state of the run. -/
def Truthful (s : Console) (calls : List Call) : Prop :=
  ∀ before after, calls = before ++ after → (before.foldl Console.after s).Truthful

/-! ### The flag -/

/-- The flag is up for every row. -/
@[simp] theorem isSpice_eq_true (i : Instance) : isSpice i = true := rfl

theorem Console.truthful_iff {s : Console} : s.Truthful ↔ s.switched = true := by
  simp [Console.Truthful]

/-- It is wrong after every start. -/
theorem Console.not_truthful_of_boots {s : Console} {c : Call}
    (hboots : World.boots { s.world with replies := c.replies, ssh := c.ssh } c.op = true) :
    ¬ (s.after c).Truthful := by
  have hquiet :
      World.switches { s.world with replies := c.replies, ssh := c.ssh } c.op = false := by
    cases hop : c.op with
    | deploy => rfl
    | start => rfl
    | updateState => simp [World.boots, hop] at hboots
    | isCreated => simp [World.boots, hop] at hboots
    | stop forced => simp [World.boots, hop] at hboots
    | destroyVm => simp [World.boots, hop] at hboots
    | vncToSpiceProtocol => simp [World.boots, hop] at hboots
    | perform job => simp [World.boots, hop] at hboots
  rw [Console.truthful_iff, Console.after, hquiet, hboots]
  simp

/-- **The flag is truthful in no run**: it is up before the console of a new row has ever
been switched. -/
theorem truthful_never (w : World) (calls : List Call) : ¬ Truthful { world := w } calls := by
  intro h
  have hfirst : Console.Truthful { world := w } := h [] calls rfl
  rw [Console.truthful_iff] at hfirst
  exact Bool.false_ne_true hfirst

/-- A new row and its deployment, without any call of `VNCToSPICEProtocol`. -/
theorem untruthful_when_deployed :
    ¬ Truthful { world := pendingWorld } [⟨.deploy, [.job .deploy (some "21")], []⟩] := by
  intro h
  exact absurd (h [⟨.deploy, [.job .deploy (some "21")], []⟩] [] rfl rfl) (by decide)

/-! ### The address -/

/-- The address of the console. -/
def Instance.address (i : Instance) : String × String := (i.hostname, i.port)

/-- No call, and no write of the state or of a machine, touches it. -/
theorem kept_address (a : String × String) : Kept fun w => w.row.address = a where
  calls := fun _ _ h => h
  writes := fun _ _ h => h
  enqueues := fun _ _ h => h
  stores := fun _ _ _ _ _ _ h => h
  checks := by
    intro w job _ _ h
    have hcases := asks_checkCreated job w
    generalize run (checkCreated job) w = outcome at hcases
    cases hcases with
    | finished hanswer hdone hrow hholds =>
      obtain ⟨s, -, rfl⟩ := Option.map_eq_some_iff.mp hrow
      exact h
    | unfinished => exact h
    | failed hholds => exact h
    | raises => exact h

theorem address_deploy (a : String × String) : Keeps (fun w => w.row.address = a) deploy := by
  refine Keeps.of_state fun w hw => ?_
  have hcases := deploys_deploy w
  generalize run deploy w = outcome at hcases
  cases hcases with
  | idle => exact hw
  | refused => exact hw
  | accepted => exact hw

/-- The methods that do not switch the console, and start no worker that does. -/
def Op.leavesConsole : Op → Bool
  | .vncToSpiceProtocol => false
  | .perform _ => false
  | _ => true

/-- **They leave the address as it is**: once it is set, a stop and the next start go by
without a trace, and a flag that tested for an empty address would stay up as well. -/
theorem address_kept {calls : List Call} (hcalls : ∀ c ∈ calls, c.op.leavesConsole = true)
    (w : World) : (calls.foldl operate w).row.address = w.row.address := by
  have hrun : ∀ op : Op, op.leavesConsole = true →
      Keeps (fun w' => w'.row.address = w.row.address) op.run := by
    intro op hop
    have h := kept_address w.row.address
    cases op with
    | deploy => exact Keeps.bind (address_deploy _) fun _ => Keeps.pure
    | updateState => exact Keeps.bind h.updateState fun _ => Keeps.pure
    | isCreated => exact Keeps.bind h.isCreated fun _ => Keeps.pure
    | start => exact Keeps.bind h.start fun _ => Keeps.pure
    | stop forced => exact Keeps.bind (h.stop forced) fun _ => Keeps.pure
    | destroyVm => exact Keeps.bind h.destroyVm fun _ => Keeps.pure
    | vncToSpiceProtocol => simp [Op.leavesConsole] at hop
    | perform job => simp [Op.leavesConsole] at hop
  refine Run.foldl_inv_along (I := fun w' => w'.row.address = w.row.address)
    (fun w' c hw' hc => ?_) rfl (Run.along_total_of_forall hcalls w)
  exact (hrun c.op hc).state hw'

end BkPlatform.Portal
