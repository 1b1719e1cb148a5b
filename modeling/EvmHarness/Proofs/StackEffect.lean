import EvmHarness.Proofs.CallReturn
import EvmHarness.Proofs.StackTrade
set_option autoImplicit false

/-!
# The effect of an instruction on the stack

The table entry of an operation says when its instruction fails for the stack: exactly in the checks
that come before the operation.  Afterwards the inputs have been traded for the outputs, and the
words below are as they were; where a callee has been entered, its end brings the one output.
-/

namespace EvmHarness

namespace Action

variable {env : Environment} {a b : Active} {op : Operation} {next : Next} {fault : Fault}

/-- An operation that has started does not fail for the stack. -/
theorem perform_not_ofStack (starts : a.Starts op)
    (h : perform op env (a.started op) = .error fault b) : ¬ fault.OfStack := by
  have traded := trades_perform op env (a.started op) starts.inputs fun _ => starts.room
  rwa [h] at traded

/-- An instruction that gives a value has traded what its table entry says, but for the answer of a
callee that it has entered. -/
theorem traded_of_instruction (operation : a.operation? = some op)
    (h : instruction env a = .ok next b) :
    Stack.Traded op.info.inputs (next.left op.info.outputs) a.frame.stack b.frame.stack := by
  obtain ⟨op', starts, performed⟩ := instruction_eq_ok h
  obtain rfl := Option.some.inj (operation.symm.trans starts.operation)
  have traded := trades_perform op env (a.started op) starts.inputs fun _ => starts.room
  rwa [performed] at traded

/-- An instruction fails for the stack in the checks in front of its operation. -/
theorem unstarted_of_ofStack (ofStack : fault.OfStack) (h : instruction env a = .error fault b) :
    a.Unstarted fault := by
  obtain ⟨op, starts⟩ | ⟨fault', unstarted, fails⟩ := instruction_starts_or_fails env a
  · rw [instruction_of_starts env starts] at h
    exact absurd ofStack (perform_not_ofStack starts h)
  · rw [fails] at h
    obtain ⟨rfl, _⟩ := EStateM.Result.error.inj h
    exact unstarted

/-- An instruction underruns the stack exactly where its inputs are not there. -/
theorem stackUnderrun_iff (operation : a.operation? = some op) :
    (∃ b, instruction env a = .error .stackUnderrun b) ↔
      a.frame.stack.size < op.info.inputs := by
  have performed := instruction_of_operation env operation
  have ofStack : Fault.stackUnderrun.OfStack := trivial
  constructor
  · rintro ⟨b, h⟩
    cases unstarted_of_ofStack ofStack h with
    | underrun operation' short =>
        obtain rfl := Option.some.inj (operation.symm.trans operation')
        exact short
  · intro short
    exact ⟨_, performed.trans (if_pos short)⟩

/-- An instruction exceeds the limit of the stack exactly where its inputs are there and its outputs
are too many. -/
theorem stackLimitExceeded_iff (operation : a.operation? = some op) :
    (∃ b, instruction env a = .error .stackLimitExceeded b) ↔
      op.info.inputs ≤ a.frame.stack.size ∧
        Stack.limit < a.frame.stack.size - op.info.inputs + op.info.outputs := by
  have performed := instruction_of_operation env operation
  have ofStack : Fault.stackLimitExceeded.OfStack := trivial
  constructor
  · rintro ⟨b, h⟩
    cases unstarted_of_ofStack ofStack h with
    | overflow operation' full =>
        obtain rfl := Option.some.inj (operation.symm.trans operation')
        refine ⟨Nat.le_of_not_lt fun short => ?_, full⟩
        rw [performed, if_pos short] at h
        exact absurd h nofun
  · rintro ⟨inputs, full⟩
    exact ⟨_, performed.trans ((if_neg (Nat.not_lt_of_le inputs)).trans (if_pos full))⟩

end Action

/-! ## Answers of callees -/

namespace Suspended

theorem trades_deliver (purpose : Purpose) (data : ByteArray) :
    FrameM.Trades 0 0 (fun _ => 0) (deliver purpose data) := by
  cases purpose with
  | call offset size => exact FrameM.trades_store _ _ _
  | create address => exact .pure rfl

theorem trades_resumeAfterFault (s : Suspended) (gasLeft : Nat) (fault : Fault) :
    FrameM.Trades 0 1 (fun _ => 1) (s.resumeAfterFault gasLeft fault) := by
  have lost : FrameM.Trades 0 1 (fun _ => 1) (do
      modify fun f => { f with returnData := ByteArray.empty }
      FrameM.push 0 : FrameM Unit) :=
    Trades.free_bind (.modify fun _ => rfl) fun _ => FrameM.trades_push 0
  cases fault with
  | reverted data =>
      exact Trades.free_bind (.modify fun _ => rfl) fun _ =>
        (trades_deliver _ _).free_bind fun _ => FrameM.trades_push 0
  | _ => exact lost

theorem trades_resumeAfterSuccess (s : Suspended) (gasLeft : Nat) (output : ByteArray) :
    FrameM.Trades 0 1 (fun _ => 1) (s.resumeAfterSuccess gasLeft output) := by
  unfold resumeAfterSuccess
  split
  exact Trades.free_bind (.modify fun _ => rfl) fun _ =>
    (trades_deliver _ _).free_bind fun _ => FrameM.trades_push _

/-- A caller goes on with one more word on its stack. -/
theorem traded_of_resume {s : Suspended} (room : s.HasRoom) {gasLeft : Nat} {outcome : Outcome}
    {w : World} {b : Active} (h : s.resume gasLeft outcome w = .ok () b) :
    Stack.Traded 0 1 s.frame.stack b.frame.stack := by
  have taken {act : FrameM Unit} {w' : World} (trades : FrameM.Trades 0 1 (fun _ => 1) act)
      (h : Action.onFrame act default ⟨s.frame, w'⟩ = .ok () b) :
      Stack.Traded 0 1 s.frame.stack b.frame.stack := by
    have traded := trades s.frame (Nat.zero_le _) fun _ => room.stack
    rwa [(Action.onFrame_eq_ok.1 h).1] at traded
  unfold resume at h
  cases outcome with
  | failure fault => exact taken (trades_resumeAfterFault _ _ _) h
  | success output =>
      cases hp : s.purpose with
      | call offset size =>
          rw [hp] at h
          exact taken (trades_resumeAfterSuccess _ _ _) h
      | create address =>
          rw [hp] at h
          dsimp only at h
          cases hd : w.deposit address output gasLeft with
          | ok deposited =>
              rw [hd] at h
              exact taken (trades_resumeAfterSuccess _ _ _) h
          | error fault =>
              rw [hd] at h
              exact taken (trades_resumeAfterFault _ _ _) h

end Suspended

/-! ## Along a run -/

namespace Machine

variable {s : Machine} {op : Operation}

theorem ends_failure {fault : Fault} {b : Active} :
    s.Ends (.failure fault) b ↔
      Action.instruction s.environment s.active = .error fault b := by
  constructor
  · intro ends
    cases ends with
    | fault h => exact h
  · exact .fault

/-- An operation after which the frame goes on has traded. -/
theorem traded_step (reachable : s.Reachable) (running : s.result = none)
    (operation : s.active.operation? = some op) (goes_on : s.step.result = none)
    (level : s.step.depth = s.depth) :
    Stack.Traded op.info.inputs op.info.outputs s.frame.stack s.step.frame.stack := by
  have moves := moves_step running reachable.room
  generalize s.step = t at moves goes_on level ⊢
  cases moves with
  | proceed h => exact Action.traded_of_instruction operation h
  | enter h => exact absurd level (Nat.succ_ne_self _)
  | resume ends callers runs =>
      have deeper : s.depth = _ + 1 := congrArg List.length callers
      exact absurd (level.trans deeper) (Nat.ne_of_lt (Nat.lt_succ_self _))
  | finish ends alone => exact absurd goes_on nofun

/-- A call or a creation has taken its inputs when its callee is entered, and leaves one word. -/
theorem traded_of_enters (running : s.result = none) (reachable : s.Reachable)
    (operation : s.active.operation? = some op) {c : Suspended}
    (enters : s.step.suspended = c :: s.suspended) :
    op.info.outputs = 1 ∧ Stack.Traded op.info.inputs 0 s.frame.stack c.frame.stack := by
  have deeper : s.depth < s.step.depth := by
    rw [depth, depth, enters]
    exact Nat.lt_succ_self _
  obtain ⟨callee, purpose, reversion, b, h, hstep⟩ :=
    instruction_of_deeper (moves_step running reachable.room) deeper
  rw [hstep] at enters
  obtain ⟨rfl, _⟩ := List.cons.inj enters
  obtain ⟨op', operation', nests⟩ := (Action.instruction_enters h).nests
  obtain rfl := Option.some.inj (operation.symm.trans operation')
  refine ⟨?_, Action.traded_of_instruction operation h⟩
  cases op with
  | call scheme => rfl
  | create salted => rfl
  | _ => exact absurd nests Bool.false_ne_true

/-- Once the callee has ended, its caller goes on with the inputs traded for the answer. -/
theorem RunsCallee.traded {n : Nat} {c : Suspended} {outcome : Outcome} {b : Active}
    (runs : s.RunsCallee n c outcome b) (reachable : s.Reachable) (running : s.result = none)
    (operation : s.active.operation? = some op) :
    (step^[n + 1] s).result = none ∧ (step^[n + 1] s).suspended = s.suspended ∧
      Stack.Traded op.info.inputs op.info.outputs s.frame.stack
        (step^[n + 1] s).frame.stack := by
  obtain ⟨one, taken⟩ := traded_of_enters running reachable operation runs.enters
  have last := reachable.iterate n
  have room : c.HasRoom := by
    refine last.room c ?_
    rw [runs.waits]
    exact List.mem_cons_self
  obtain ⟨f, resumed, _⟩ := Suspended.resume_eq_ok room b.frame.gas outcome b.world
  rw [Function.iterate_succ_apply', step_of_ends (last.running_of_suspended runs.waits) runs.ends,
    runs.waits, unwind_of_resume_ok resumed, one]
  exact ⟨rfl, rfl, taken.trans (Suspended.traded_of_resume room resumed)⟩

/-- The table is exact.  An instruction underruns or overfills the stack where its table entry says
so, and in the checks in front of its operation; the operation itself never does.  If it completes,
its inputs have been traded for its outputs and everything below is as it was: at once, or, where it
has entered a callee, when that has ended. -/
theorem stack_effects_exact (reachable : s.Reachable) (running : s.result = none)
    (operation : s.active.operation? = some op) :
    ((∃ b, s.Ends (.failure .stackUnderrun) b) ↔ s.frame.stack.size < op.info.inputs) ∧
      ((∃ b, s.Ends (.failure .stackLimitExceeded) b) ↔ op.info.inputs ≤ s.frame.stack.size ∧
        Stack.limit < s.frame.stack.size - op.info.inputs + op.info.outputs) ∧
      (s.active.Starts op → ∀ fault b,
        Action.perform op s.environment (s.active.started op) = .error fault b →
          fault ≠ .stackUnderrun ∧ fault ≠ .stackLimitExceeded) ∧
      (∀ output b, s.Ends (.success output) b →
        Stack.Traded op.info.inputs op.info.outputs s.frame.stack b.frame.stack) ∧
      (s.step.result = none → s.step.depth = s.depth →
        Stack.Traded op.info.inputs op.info.outputs s.frame.stack s.step.frame.stack) ∧
      (s.depth < s.step.depth → (∃ n c outcome b, s.RunsCallee n c outcome b) ∧
        ∀ n c outcome b, s.RunsCallee n c outcome b →
          (step^[n + 1] s).result = none ∧ (step^[n + 1] s).suspended = s.suspended ∧
            Stack.Traded op.info.inputs op.info.outputs s.frame.stack
              (step^[n + 1] s).frame.stack) := by
  refine ⟨?_, ?_, ?_, ?_, ?_, ?_⟩
  · exact (exists_congr fun b => ends_failure).trans (Action.stackUnderrun_iff operation)
  · exact (exists_congr fun b => ends_failure).trans (Action.stackLimitExceeded_iff operation)
  · intro starts fault b h
    have apart := Action.perform_not_ofStack starts h
    exact ⟨fun same => apart (same ▸ trivial), fun same => apart (same ▸ trivial)⟩
  · intro output b ends
    cases ends with
    | halt h => exact Action.traded_of_instruction operation h
  · exact traded_step reachable running operation
  · intro deeper
    refine ⟨reachable.exists_runsCallee deeper, fun n c outcome b runs => ?_⟩
    exact runs.traded reachable running operation

/-- The words that are exchanged are the top one and the one that is named, and both are counted as
inputs. -/
example : (step^[4] (Transaction.ofFirst.opening 100 (ofCodes
    ⟨#[0x60, 1, 0x60, 2, 0x60, 3, 0x91]⟩ ByteArray.empty))).frame.stack.words = [1, 2, 3] := by
  decide +kernel

/-- A call with all of its seven words on the stack, and none below, leaves one. -/
theorem askingCall_leaves_answer :
    askingCall.frame.stack.size = 7 ∧ (step^[7] askingCall).frame.stack.size = 1 ∧
      ¬ ∃ b, askingCall.Ends (.failure .stackUnderrun) b := by
  have reachable : askingCall.Reachable :=
    (Reachable.prepared (Transaction.prepare_ofFirst _ _)).iterate 7
  have operation : askingCall.active.operation? = some (.call .call) := by decide +kernel
  have size : askingCall.frame.stack.size = 7 := by decide +kernel
  obtain ⟨c, b, runs⟩ := askingCall_runsCallee
  have running := running_of_depth_ne (Nat.ne_of_gt (runs.deeper 1 Nat.one_pos (by decide)))
  obtain ⟨underrun, _, _, _, _, calls⟩ := stack_effects_exact reachable running operation
  have deeper := runs.deeper 1 Nat.one_pos (by decide)
  obtain ⟨_, _, traded⟩ := (calls deeper).2 6 c _ b runs
  refine ⟨size, ?_, fun fails => ?_⟩
  · rw [traded.size, size]
    rfl
  · exact absurd (underrun.1 fails) (by rw [size]; decide)

end Machine

end EvmHarness
