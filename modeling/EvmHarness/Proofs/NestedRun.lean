import EvmHarness.Proofs.DepthBlind
import EvmHarness.Proofs.MachineRun
set_option autoImplicit false

/-!
# A frame runs nested as it runs outermost

On top of suspended frames, a machine does what it does by itself, as long as they are not too deep
together: the frames below stay as they are until its own outermost frame ends, and its outcome,
which would have been the result, is handed to the innermost of them.
-/

namespace EvmHarness

namespace Machine

variable {m n v : Machine} {below : List Suspended} {k : Nat}

/-- The machine without its suspended frames. -/
def alone (m : Machine) : Machine := { m with suspended := [] }

/-- The machine on top of more suspended frames. -/
def above (m : Machine) (below : List Suspended) : Machine :=
  { m with suspended := m.suspended ++ below }

/-- The machine on top of more suspended frames, which take its result up if it has one. -/
def settleAbove (m : Machine) (below : List Suspended) : Machine :=
  match m.result with
  | none => m.above below
  | some outcome => unwind m.setting below m.active outcome

theorem alone_above (m : Machine) : m.alone.above m.suspended = m := rfl

theorem settleAbove_of_running (running : m.result = none) (below : List Suspended) :
    m.settleAbove below = m.above below := by
  rw [settleAbove, running]

theorem settleAbove_of_result {outcome : Outcome} (result : m.result = some outcome)
    (below : List Suspended) :
    m.settleAbove below = unwind m.setting below m.active outcome := by
  rw [settleAbove, result]

/-! ## One step -/

/-- An outcome goes to the callers of a machine first, and to the frames below them after that. -/
theorem unwind_append (setting : Setting) (callers below : List Suspended) (active : Active)
    (outcome : Outcome) :
    unwind setting (callers ++ below) active outcome =
      (unwind setting callers active outcome).settleAbove below := by
  induction callers generalizing active outcome with
  | nil => rfl
  | cons s rest ih =>
      simp only [List.cons_append, unwind]
      cases s.resume active.frame.gas outcome active.world with
      | ok u active => rfl
      | error fault active => exact ih active (.failure fault)

theorem follow_append (setting : Setting) (callers below : List Suspended) (active : Active)
    (next : Next) :
    follow setting (callers ++ below) active next =
      (follow setting callers active next).settleAbove below := by
  cases next with
  | proceed => rfl
  | enter callee purpose reversion => rfl
  | halt output => exact unwind_append setting callers below active (.success output)

/-- A step on top of more frames is a step of the machine by itself, whose result they take up. -/
theorem step_above (running : m.result = none)
    (shallow : below.length + m.depth < callDepthLimit) :
    (m.above below).step = m.step.settleAbove below := by
  have together : (m.above below).depth < callDepthLimit := by
    show (m.suspended ++ below).length < callDepthLimit
    rw [List.length_append, Nat.add_comm]
    exact shallow
  have same : Action.instruction (m.above below).environment = Action.instruction m.environment :=
    Action.blind_instruction together (Nat.lt_of_le_of_lt (Nat.le_add_left _ _) shallow)
  cases h : Action.instruction m.environment m.active with
  | ok next b =>
      rw [step_of_ok running h, ← follow_append]
      exact step_of_ok (m := m.above below) running (same ▸ h)
  | error fault b =>
      rw [step_of_ends running (.fault h), ← unwind_append]
      exact step_of_ends (m := m.above below) running (.fault (same ▸ h))

/-- A machine that has no result after a step had none before. -/
theorem running_of_step (running : m.step.result = none) : m.result = none := by
  cases hr : m.result with
  | none => rfl
  | some outcome =>
      rw [step_eq_self hr, hr] at running
      exact absurd running nofun

theorem Moves.setting (h : m.Moves n) : n.setting = m.setting := by
  cases h <;> rfl

theorem setting_iterate (room : m.Room) (k : Nat) : (step^[k] m).setting = m.setting := by
  induction k generalizing m with
  | zero => rfl
  | succ k ih =>
      rw [Function.iterate_succ_apply, ih room.step]
      cases hr : m.result with
      | none => exact (moves_step hr room).setting
      | some outcome => rw [step_eq_self hr]

/-! ## The whole run -/

/-- As long as there is no result, a run on top of more frames is the run by itself, with those
frames unchanged below. -/
theorem iterate_above (running : (step^[k] m).result = none)
    (shallow : ∀ i < k, below.length + (step^[i] m).depth < callDepthLimit) :
    step^[k] (m.above below) = (step^[k] m).above below := by
  induction k with
  | zero => rfl
  | succ k ih =>
      rw [Function.iterate_succ_apply'] at running
      rw [Function.iterate_succ_apply', Function.iterate_succ_apply']
      have before := running_of_step running
      rw [ih before fun i hi => shallow i (Nat.lt_succ_of_lt hi)]
      rw [step_above before (shallow k (Nat.lt_succ_self k)), settleAbove_of_running running]

/-- Up to a result, a nested frame runs as it would without the frames suspended below it, and these
stay unchanged.  What would then be the result is handed to the innermost of them, which goes on
above the others. -/
theorem nested_run_is_outermost_run (reachable : v.Reachable)
    (alive : (step^[k] v.alone).result = none)
    (shallow : ∀ i ≤ k, v.depth + (step^[i] v.alone).depth < callDepthLimit) :
    step^[k] v = (step^[k] v.alone).above v.suspended ∧
      ∀ r s rest, (step^[k + 1] v.alone).result = some r → v.suspended = s :: rest →
        ∃ resumed, s.resume (step^[k + 1] v.alone).frame.gas r (step^[k + 1] v.alone).world =
            .ok () resumed ∧
          step^[k + 1] v = { v with active := resumed, suspended := rest, result := none } := by
  have runs : step^[k] (v.alone.above v.suspended) = (step^[k] v.alone).above v.suspended :=
    iterate_above alive fun i hi => shallow i (Nat.le_of_lt hi)
  rw [alone_above] at runs
  refine ⟨runs, ?_⟩
  intro r s rest result callers
  -- a caller in a reachable machine can take up any outcome
  have waits : s.HasRoom := by
    apply reachable.room s
    rw [callers]
    exact List.mem_cons_self
  have setting : (step^[k + 1] v.alone).setting = v.setting :=
    setting_iterate (m := v.alone) nofun (k + 1)
  obtain ⟨f, resumes, _⟩ := Suspended.resume_eq_ok waits (step^[k + 1] v.alone).frame.gas r
    (step^[k + 1] v.alone).world
  refine ⟨_, resumes, ?_⟩
  calc step^[k + 1] v
      = ((step^[k] v.alone).above v.suspended).step := by
        rw [Function.iterate_succ_apply', runs]
    _ = (step^[k + 1] v.alone).settleAbove v.suspended := by
        rw [step_above alive (shallow k (Nat.le_refl k)), Function.iterate_succ_apply']
    _ = unwind v.setting (s :: rest) (step^[k + 1] v.alone).active r := by
        rw [settleAbove_of_result result, setting, callers]
    _ = { v with active := _, suspended := rest, result := none } := unwind_of_resume_ok resumes

/-- A machine that has just entered an account that reads a slot. -/
def enteredReader : Machine :=
  step^[8] (Transaction.ofFirst.opening 100000 (ofCodes
    ⟨#[0x5f, 0x5f, 0x5f, 0x5f, 0x5f, 0x60, 2, 0x5a, 0xf1]⟩ ⟨#[0x5f, 0x54, 0x00]⟩))

theorem enteredReader_runs_as_outermost :
    enteredReader.depth = 1 ∧
      step^[2] enteredReader = (step^[2] enteredReader.alone).above enteredReader.suspended ∧
      (step^[3] enteredReader.alone).result = some (.success ByteArray.empty) ∧
      (step^[3] enteredReader).depth = 0 := by
  have reachable : enteredReader.Reachable :=
    (Reachable.prepared (Transaction.prepare_ofFirst _ _)).iterate 8
  have alive : (step^[2] enteredReader.alone).result = none :=
    Option.isNone_iff_eq_none.1 (by decide +kernel)
  have shallow : ∀ i ≤ 2, enteredReader.depth + (step^[i] enteredReader.alone).depth <
      callDepthLimit := by
    decide +kernel
  have result : (step^[3] enteredReader.alone).result = some (.success ByteArray.empty) := by
    decide +kernel
  obtain ⟨s, rest, callers⟩ : ∃ s rest, enteredReader.suspended = s :: rest :=
    List.exists_cons_of_length_pos (by decide +kernel)
  obtain ⟨runs, hands⟩ := nested_run_is_outermost_run reachable alive shallow
  obtain ⟨resumed, _, hstep⟩ := hands _ s rest result callers
  have one : enteredReader.depth = 1 := by decide +kernel
  have none_left : rest.length = 0 := by
    have hdepth : enteredReader.depth = rest.length + 1 := congrArg List.length callers
    omega
  refine ⟨one, runs, result, ?_⟩
  rw [hstep]
  exact none_left

end Machine

end EvmHarness
