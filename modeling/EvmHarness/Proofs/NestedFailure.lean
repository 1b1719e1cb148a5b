import EvmHarness.Proofs.LogRun
import EvmHarness.Proofs.RunInvariant
set_option autoImplicit false

/-!
# A nested failure leaves no trace

While a callee runs, with whatever callees of its own, the logs only grow beyond those at its
entry, and no caller above it may drop more than it found.  When the callee fails, dropping to the
mark of its caller therefore gives the logs back as they were, and the account records that the
caller kept come back with them.
-/

namespace EvmHarness

namespace Machine

variable {s t m : Machine}

/-- Whatever runs, the logs start with those of an earlier moment, as long as every caller that
has come since keeps at least those. -/
theorem carries_logs (logs : Array Log) (m : Machine) :
    m.CarriesEach (·.world.LogsFrom logs) (logs.size ≤ ·.logMark) where
  ok := Action.instruction_logs
  error ha h := ha.reaches (Action.instruction_error_later h).world
  enter ha h := by
    have hb := Action.instruction_logs ha h
    exact ⟨hb, hb.size⟩
  resume := by
    intro outcome b s f hs hb runs
    show (s.settled b.frame.gas outcome b.world).LogsFrom logs
    obtain ⟨_, hw⟩ | ⟨_, _, _, _, hw⟩ | hw := s.settled_cases b.frame.gas outcome b.world
    · rw [hw]
      exact hb
    · rw [hw]
      exact hb
    · rw [hw]
      exact hb.revert hs _

/-! ## Failing into the caller -/

/-- The next instruction of a machine fails into its own frame, and the second machine is the
first one back at the depth of that frame. -/
inductive FailsInto (s : Machine) : Machine → Prop where
  /-- no callee runs, and a zero is pushed -/
  | atOnce {b : Active} (h : Action.instruction s.environment s.active = .ok .proceed b)
      (zero : b.frame.stack.words.head? = some 0) : FailsInto s s.step
  /-- a callee has run for `n` steps, at greater depths throughout, and its caller takes its
  outcome for a failure -/
  | nested {n : Nat} {outcome : Outcome} {b : Active} {c : Suspended} {rest : List Suspended}
      (ran : 0 < n) (deeper : ∀ k, 0 < k → k ≤ n → s.depth < (step^[k] s).depth)
      (ends : (step^[n] s).Ends outcome b) (callers : (step^[n] s).suspended = c :: rest)
      (refuses : c.Refuses b.frame.gas outcome b.world)
      (back : (step^[n + 1] s).depth = s.depth) : FailsInto s (step^[n + 1] s)

/-- A call or creation that fails into its caller leaves no trace but the count of a creation that
passed its checks: in the first state back at its depth, all account records and logs are those
from before the instruction, and so are the suspended frames. -/
theorem failed_call_leaves_no_trace {op : Operation} (reachable : s.Reachable)
    (running : s.result = none) (operation : s.active.operation? = some op)
    (nests : op.nests = true) (fails : s.FailsInto t) :
    t.result = none ∧ t.suspended = s.suspended ∧ t.world.logs = s.world.logs ∧
      t.accounts = s.active.restored s.depth := by
  cases fails with
  | atOnce h zero =>
      rename_i b
      obtain ⟨haccounts, hlogs⟩ := Action.instruction_refuses h operation nests zero
      have stepped : s.step = { s with active := b } := step_of_proceed running h
      rw [stepped]
      exact ⟨running, rfl, hlogs, haccounts⟩
  | nested ran deeper ends callers refuses back =>
      rename_i n outcome b c rest
      obtain ⟨callee, purpose, reversion, caller, enters, holds⟩ :=
        holds_nested (I := .uniform (·.world.LogsFrom s.world.logs) _) reachable running ran deeper
          (fun enters => World.LogsFrom.of_eq enters.logs)
          fun m => (carries_logs s.world.logs m).carries
      rw [Function.iterate_succ_apply'] at back ⊢
      obtain ⟨outcome', b', f, ends', hlogs, callers', running', hstep⟩ :=
        holds.back (carries_logs s.world.logs _).carries (reachable.iterate n).room
          (deeper n ran (Nat.le_refl n)) (Nat.le_of_eq back)
      obtain ⟨rfl, rfl⟩ := ends.unique ends'
      obtain ⟨rfl, _⟩ := List.cons.inj (callers.symm.trans callers')
      have hmark : caller.world.logs.size = s.world.logs.size := by rw [enters.logs]; rfl
      have hworld : (step^[n] s).step.world =
          b.world.revert (s.active.restored s.depth) s.world.logs.size := by
        rw [hstep, ← enters.restores, ← hmark]
        exact Suspended.settled_of_refuses refuses
      refine ⟨?_, ?_, ?_, ?_⟩
      · rw [hstep]
        exact running'
      · rw [hstep]
      · rw [hworld]
        exact hlogs.logs_revert _
      · have haccounts := congrArg World.accounts hworld
        rwa [World.revert_accounts] at haccounts

/-- A machine about to call an account that writes a slot and a log and then fails. -/
def doomedCall : Machine :=
  step^[7] (Transaction.ofFirst.opening 100000 (ofCodes
    ⟨#[0x5f, 0x5f, 0x5f, 0x5f, 0x5f, 0x60, 2, 0x5a, 0xf1]⟩
    ⟨#[0x60, 1, 0x5f, 0x55, 0x5f, 0x5f, 0xa0, 0xfe]⟩))

theorem doomedCall_failsInto : doomedCall.FailsInto (step^[8] doomedCall) := by
  have ends : (step^[7] doomedCall).Ends (.failure (.undefined 0xfe)) _ :=
    .fault (eq_error_of_faultOf? (by decide +kernel))
  obtain ⟨c, rest, callers⟩ : ∃ c rest, (step^[7] doomedCall).suspended = c :: rest :=
    List.exists_cons_of_length_pos (by decide +kernel)
  have deeper : ∀ k < 8, 0 < k → doomedCall.depth < (step^[k] doomedCall).depth := by
    decide +kernel
  exact .nested (Nat.succ_pos 6) (fun k ran hk => deeper k (Nat.lt_succ_of_le hk) ran) ends callers
    trivial (by decide +kernel)

/-- What the callee has written when it fails is gone in the next state. -/
theorem doomedCall_leaves_no_trace :
    doomedCall.result = none ∧
      ((step^[7] doomedCall).accounts.read 2).storage.value 0 = 1 ∧
      (step^[7] doomedCall).world.logs.size = doomedCall.world.logs.size + 1 ∧
      (step^[8] doomedCall).accounts = doomedCall.accounts ∧
      (step^[8] doomedCall).world.logs = doomedCall.world.logs := by
  have running : doomedCall.result = none := Option.isNone_iff_eq_none.1 (by decide +kernel)
  have operation : doomedCall.active.operation? = some (.call .call) := by decide +kernel
  have reachable : doomedCall.Reachable :=
    (Reachable.prepared (Transaction.prepare_ofFirst _ _)).iterate 7
  obtain ⟨_, _, logs, haccounts⟩ :=
    failed_call_leaves_no_trace reachable running operation rfl doomedCall_failsInto
  exact ⟨running, by decide +kernel, by decide +kernel,
    haccounts.trans (Active.restored_of_call operation _), logs⟩

end Machine

end EvmHarness
