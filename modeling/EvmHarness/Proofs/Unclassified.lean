import EvmHarness.Proofs.FaultRun
import EvmHarness.Proofs.Verdict
set_option autoImplicit false

/-!
# The one failure without a class

A transaction fails without a class in one way only: its own frame copies return data from past the
end of it.  The frame may change everything, so it never tries a change where none is allowed; it is
no callee, so no code is deposited for it; and what its callees fail with its callers take up.
-/

namespace EvmHarness

/-! ## Return data that is read past its end -/

namespace Active

/-- The next instruction copies return data from a range that reaches past its end. -/
def Overruns (a : Active) : Prop :=
  a.Starts (.frame (.copy .returnData)) ∧ ∃ dest offset size rest,
    a.frame.stack.words = dest :: offset :: size :: rest ∧
      a.frame.returnData.size < offset.toNat + size.toNat

/-- The words that a copy takes off the stack are there once it has started. -/
theorem Starts.copy_words {a : Active} {source : CopySource}
    (starts : a.Starts (.frame (.copy source))) :
    ∃ dest offset size rest, a.frame.stack.words = dest :: offset :: size :: rest := by
  have inputs : 3 ≤ a.frame.stack.words.length := starts.inputs
  match a.frame.stack.words, inputs with
  | dest :: offset :: size :: rest, _ => exact ⟨dest, offset, size, rest, rfl⟩

end Active

/-- A copy takes its words off the stack, and fails where return data does not reach far enough. -/
theorem FrameM.copyFrom_apply (source : CopySource) {f : Frame} {dest offset size : Word}
    {rest : List Word} (words : f.stack.words = dest :: offset :: size :: rest) :
    copyFrom source f =
      if source = .returnData ∧ (sourceBytes f source).size < offset.toNat + size.toNat then
        .error .returnDataOverrun { f with stack := ⟨rest⟩ }
      else copyIn (sourceBytes f source) dest offset size { f with stack := ⟨rest⟩ } := by
  rcases f with ⟨account, codeAccount, code, jumpDests, pc, ⟨stack⟩, memory, callData, callValue,
    caller, gas, returnData, isStatic⟩
  obtain rfl : stack = dest :: offset :: size :: rest := words
  have bytes : sourceBytes ⟨account, codeAccount, code, jumpDests, pc, ⟨rest⟩, memory, callData,
      callValue, caller, gas, returnData, isStatic⟩ source =
    sourceBytes ⟨account, codeAccount, code, jumpDests, pc, ⟨dest :: offset :: size :: rest⟩,
      memory, callData, callValue, caller, gas, returnData, isStatic⟩ source := by
    cases source <;> rfl
  rw [← bytes]
  show (if source = .returnData ∧ _ then
      throw .returnDataOverrun >>= fun _ => copyIn _ dest offset size
    else copyIn _ dest offset size : FrameM Unit) _ = _
  split <;> rfl

namespace Action

variable {env : Environment} {a c : Active} {fault : Fault}

/-- A copy of return data from past its end fails. -/
theorem instruction_of_overruns (env : Environment) (overruns : a.Overruns) :
    ∃ c, instruction env a = .error .returnDataOverrun c := by
  obtain ⟨starts, dest, offset, size, rest, words, short⟩ := overruns
  have copied := (FrameM.copyFrom_apply .returnData
    (f := (a.started (.frame (.copy .returnData))).frame) words).trans (if_pos ⟨rfl, short⟩)
  rw [instruction_of_starts env starts]
  exact ⟨_, bind_of_eq_error (onFrame_of_eq_error copied env) _⟩

/-- In a frame that may change something, an instruction fails without a class only where it copies
return data from past its end. -/
theorem classed_or_overruns (changeable : a.frame.isStatic = false)
    (h : instruction env a = .error fault c) :
    fault.Classed ∨ fault = .returnDataOverrun ∧ a.Overruns := by
  obtain classed | ⟨op, starts, hperform⟩ := instruction_classed_or_performs h
  · exact .inl classed
  · by_cases copies : op = .frame (.copy .returnData)
    · subst copies
      obtain ⟨dest, offset, size, rest, words⟩ := starts.copy_words
      by_cases short : a.frame.returnData.size < offset.toNat + size.toNat
      · have overruns : a.Overruns := ⟨starts, dest, offset, size, rest, words, short⟩
        obtain ⟨c', fails⟩ := instruction_of_overruns env overruns
        rw [fails] at h
        obtain ⟨rfl, _⟩ := EStateM.Result.error.inj h
        exact .inr ⟨rfl, overruns⟩
      · have copied := (FrameM.copyFrom_apply .returnData
          (f := (a.started (.frame (.copy .returnData))).frame) words).trans
            (if_neg fun overrun => short overrun.2)
        have hcopy : (onFrame (FrameM.copyFrom .returnData) >>= fun _ => pure Next.proceed) env
            (a.started (.frame (.copy .returnData))) = .error fault c := hperform
        rcases bind_eq_error.1 hcopy with hcopy | ⟨_, _, _, hcopy⟩
        · have failed := copied.symm.trans (onFrame_eq_error.1 hcopy).1
          exact .inl (FrameM.raises_copyIn _ _ _ _ failed)
        · exact absurd hcopy nofun
    · exact .inl (classed_of_perform (a := a.started op) copies changeable hperform)

end Action

/-! ## The whole run -/

namespace Machine

variable {tx : Transaction} {gasLimit : UInt64} {before m : Machine}

/-- The next instruction is one of the outermost frame and copies return data from past its end. -/
def OverrunsAlone (m : Machine) : Prop := m.result = none ∧ m.suspended = [] ∧ m.active.Overruns

/-- The outcome of a run has no class exactly where its own frame copies return data from past the
end of it. -/
theorem unclassed_iff_overruns (h : tx.prepare gasLimit before = .ok m) (fault : Fault) :
    (m.run.1 = .failure fault ∧ fault.severity = .unknown) ↔
      fault = .returnDataOverrun ∧ ∃ k, (step^[k] m).OverrunsAlone := by
  have reachable := Reachable.prepared h
  obtain ⟨runs, result, _⟩ := run_ends h
  rw [runs] at result
  constructor
  · rintro ⟨outcome, unknown⟩
    rw [outcome] at result
    obtain ⟨k, _, running, alone, b, ends⟩ :=
      ends_of_result reachable (Transaction.starts_alone h).1 result
    have free := outermost_iterate h k alone
    cases ends with
    | fault fails =>
        rcases Action.classed_or_overruns free.changeable fails with classed | ⟨rfl, overruns⟩
        · exact absurd unknown classed
        · exact ⟨rfl, k, running, alone, overruns⟩
  · rintro ⟨rfl, k, running, alone, overruns⟩
    obtain ⟨c, fails⟩ := Action.instruction_of_overruns (step^[k] m).environment overruns
    have fails : (step^[k + 1] m).result = some (.failure .returnDataOverrun) := by
      rw [Function.iterate_succ_apply']
      exact result_of_ends running alone (.fault fails)
    exact ⟨result_unique result fails, rfl⟩

end Machine

namespace HarnessM

open Machine (step)

variable {tx : Transaction} {gasLimit : UInt64} {before : Machine}

theorem verdict_unclassified_iff (o : Outcome) (fault : Fault) :
    o.verdict = .error (.unclassified fault) ↔ o = .failure fault ∧ fault.severity = .unknown := by
  cases o with
  | success output => simp [Outcome.verdict]
  | failure other =>
      cases hs : other.severity with
      | unknown =>
          simp only [Outcome.verdict, hs, Except.error.injEq, TxFault.unclassified.injEq,
            Outcome.failure.injEq]
          exact ⟨fun same => ⟨same, same ▸ hs⟩, And.left⟩
      | revert | illegal =>
          simp only [Outcome.verdict, hs, Outcome.failure.injEq, Except.error.injEq, reduceCtorEq,
            false_iff]
          rintro ⟨rfl, unknown⟩
          rw [hs] at unknown
          cases unknown

/-- An execution reports a failure without a class where a run has had it as its outcome. -/
theorem reported_unclassified_iff {m : Machine} (h : tx.prepare gasLimit before = .ok m)
    (fault : Fault) :
    reported (execute gasLimit tx before) = .error (.unclassified fault) ↔
      m.run.1 = .failure fault ∧ fault.severity = .unknown := by
  obtain ⟨_, _, free⟩ := Machine.run_ends h
  rw [execute_apply, h]
  dsimp only
  cases hout : m.run.1 with
  | failure other => rw [reported_conclude_failure, verdict_unclassified_iff]
  | success code =>
      cases isCreate : tx.isCreate with
      | false => simp [reported_conclude_call isCreate]
      | true =>
          rw [reported_conclude_create isCreate code free.account]
          cases m.run.2.accounts[tx.destination]? <;> simp

/-- A transaction ends in a failure without a class, and is reported so, exactly where its own frame
copies return data from past the end of it.  No other failure of any bytecode is without a class. -/
theorem unclassified_iff_overruns (gasLimit : UInt64) (tx : Transaction) (before : Machine) :
    (∀ m, tx.prepare gasLimit before = .ok m → ∀ fault : Fault,
        (m.run.1 = .failure fault ∧ fault.severity = .unknown ↔
          fault = .returnDataOverrun ∧ ∃ k, (step^[k] m).OverrunsAlone)) ∧
      ∀ fault : Fault, reported (execute gasLimit tx before) = .error (.unclassified fault) ↔
        fault = .returnDataOverrun ∧
          ∃ m, tx.prepare gasLimit before = .ok m ∧ ∃ k, (step^[k] m).OverrunsAlone := by
  refine ⟨fun m h => Machine.unclassed_iff_overruns h, fun fault => ?_⟩
  cases h : tx.prepare gasLimit before with
  | ok m =>
      rw [reported_unclassified_iff h, Machine.unclassed_iff_overruns h]
      simp only [Except.ok.injEq, exists_eq_left']
  | error refused =>
      -- a transaction is refused for the balance of its sender, and for nothing else
      have balance : ∃ sender found needed,
          refused = .insufficientBalance sender found needed := by
        rw [Transaction.prepare_apply] at h
        split at h
        · exact ⟨_, _, _, (Except.error.inj h).symm⟩
        · exact absurd h nofun
      obtain ⟨sender, found, needed, rfl⟩ := balance
      rw [execute_apply, h]
      simp [reported]

/-- A machine with an account that copies a byte of return data before there is any, and another
that calls it. -/
def overrunner : Machine :=
  .ofCodes ⟨#[0x5f, 0x5f, 0x5f, 0x5f, 0x5f, 0x60, 2, 0x5a, 0xf1, 0x00]⟩
    ⟨#[0x60, 1, 0x5f, 0x5f, 0x3e]⟩

/-- In a callee that is a failure like any other, which the caller takes up. -/
theorem overrunner_called :
    (step^[11] (Transaction.ofFirst.opening 100000 overrunner)).depth = 1 ∧
      (step^[12] (Transaction.ofFirst.opening 100000 overrunner)).frame.stack.words = [0] ∧
      ¬ ∃ k, (step^[k] (Transaction.ofFirst.opening 100000 overrunner)).OverrunsAlone := by
  have outcome : (Transaction.ofFirst.opening 100000 overrunner).run.1 =
      .success ByteArray.empty := by
    decide +kernel
  obtain ⟨runs, _⟩ := unclassified_iff_overruns 100000 .ofFirst overrunner
  refine ⟨by decide +kernel, by decide +kernel, fun overruns => ?_⟩
  have failed := ((runs _ (Transaction.prepare_ofFirst _ _) .returnDataOverrun).2
    ⟨rfl, overruns⟩).1
  rw [outcome] at failed
  exact absurd failed nofun

/-- In the frame of the transaction it is reported as a failure without a class. -/
theorem overrunner_reported_unclassified :
    (Transaction.ofCall 3 2 ByteArray.empty).prepare 100000 overrunner =
        .ok ((Transaction.ofCall 3 2 ByteArray.empty).opening 100000 overrunner) ∧
      ((Transaction.ofCall 3 2 ByteArray.empty).opening 100000 overrunner).run.1 =
        .failure .returnDataOverrun ∧
      Fault.returnDataOverrun.severity = .unknown ∧
      reported (execute 100000 (.ofCall 3 2 ByteArray.empty) overrunner) =
        .error (.unclassified .returnDataOverrun) := by
  have prepared : (Transaction.ofCall 3 2 ByteArray.empty).prepare 100000 overrunner =
      .ok ((Transaction.ofCall 3 2 ByteArray.empty).opening 100000 overrunner) :=
    Transaction.prepare_eq_ok.2 ⟨BitVec.le_def.2 (Nat.zero_le _), rfl⟩
  have outcome : ((Transaction.ofCall 3 2 ByteArray.empty).opening 100000 overrunner).run.1 =
      .failure .returnDataOverrun := by
    decide +kernel
  exact ⟨prepared, outcome, rfl, (reported_unclassified_iff prepared _).2 ⟨outcome, rfl⟩⟩

end HarnessM

end EvmHarness
