import EvmHarness.Transaction.Execute
import EvmHarness.Proofs.GasBudget
set_option autoImplicit false

/-!
# The end of a transaction

A run comes to a result, and the result is judged.  Of all that, only a successful creation changes
account records: it puts its code in place.
-/

namespace EvmHarness

/-- A prepared transaction is run to a result. -/
theorem Machine.isSome_result_run {tx : Transaction} {gasLimit : UInt64} {before m : Machine}
    (h : tx.prepare gasLimit before = .ok m) : (step^[m.stepBound] m).result.isSome := by
  obtain ⟨n, hn, _, result⟩ :=
    exists_result (Reachable.prepared h).room (Transaction.starts_alone h).1
  have bound : n ≤ m.stepBound := hn
  rw [iterate_of_result result bound]
  exact result

namespace HarnessM

theorem ofExcept_apply (act : Machine → Except TxFault Machine) (m : Machine) :
    ofExcept act m =
      match act m with
      | .error fault => .error fault m
      | .ok n => .ok () n := by
  unfold ofExcept
  rw [get_bind]
  cases act m <;> rfl

/-- The machines have the same account records. -/
def SameAccounts (m n : Machine) : Prop := n.accounts = m.accounts

instance : Std.Refl SameAccounts := ⟨fun _ => rfl⟩

instance : IsTrans Machine SameAccounts := ⟨fun _ _ _ h h' => h'.trans h⟩

/-- Loading an account changes no record. -/
theorem keeps_load (address : Address) : Keeps SameAccounts (load address) := by
  intro m
  unfold load
  rw [ofExcept_apply]
  unfold Machine.load
  cases m.accounts[address]? <;> rfl

/-- The second records are the first ones, or the first ones with other code for one account. -/
def Recoded (xs ys : Accounts) : Prop :=
  ys = xs ∨ ∃ (a : Address) (record : Account) (code : ByteArray),
    xs[a]? = some record ∧ ys = xs.insert a (record.withCode code)

theorem recoded_replaceCode (address : Address) (code : ByteArray) (m : Machine) :
    Recoded m.accounts (stateAfter (replaceCode address code m)).accounts := by
  unfold replaceCode
  rw [ofExcept_apply]
  cases hr : m.accounts[address]? with
  | none => exact .inl rfl
  | some record => exact .inr ⟨address, record, code, hr, rfl⟩

/-- Judging an outcome replaces the code of one account at most. -/
theorem recoded_conclude (handler : Fault → Except TxFault Unit) (tx : Transaction)
    (outcome : Outcome) (m : Machine) :
    Recoded m.accounts (stateAfter (conclude handler tx outcome m)).accounts := by
  cases outcome with
  | failure fault =>
      have kept : Keeps SameAccounts (conclude handler tx (.failure fault)) := by
        unfold conclude
        refine .ite ?_ (.pure _)
        cases handler fault with
        | ok u => exact .pure _
        | error reported => exact (Keeps.throw _).bind fun _ => .pure _
      exact .inl (kept m)
  | success code =>
      unfold conclude
      cases tx.action with
      | call data => exact .inl rfl
      | create initCode =>
          have replaced := recoded_replaceCode m.frame.account code m
          have loads : Keeps SameAccounts (do
              load tx.destination
              return .success code : HarnessM Outcome) := (keeps_load _).bind fun _ => .pure _
          have owns : replaceOwnCode code m = replaceCode m.frame.account code m := rfl
          dsimp only
          rw [stateAfter_bind, owns]
          cases h : replaceCode m.frame.account code m with
          | ok u n =>
              rw [h] at replaced
              have same : (stateAfter ((do
                  load tx.destination
                  return .success code : HarnessM Outcome) n)).accounts = n.accounts := loads n
              dsimp only
              rw [same]
              exact replaced
          | error fault n =>
              rw [h] at replaced
              exact replaced

/-- An execution either refuses the transaction or concludes what the strategy makes of it. -/
theorem executeWith_apply (gasLimit : UInt64) (handler : Fault → Except TxFault Unit)
    (strategy : Strategy) (tx : Transaction) (before : Machine) :
    executeWith gasLimit handler strategy tx before =
      match tx.prepare gasLimit before with
      | .error fault => .error fault before
      | .ok m => conclude handler tx (strategy m).1 (strategy m).2 := by
  unfold executeWith
  show EStateM.bind (ofExcept (tx.prepare gasLimit)) _ before = _
  rw [EStateM.bind, ofExcept_apply]
  cases tx.prepare gasLimit before <;> rfl

theorem execute_apply (gasLimit : UInt64) (tx : Transaction) (before : Machine) :
    execute gasLimit tx before =
      match tx.prepare gasLimit before with
      | .error fault => .error fault before
      | .ok m => conclude refuse tx m.run.1 m.run.2 :=
  executeWith_apply gasLimit refuse Machine.run tx before

/-- The account records that an execution leaves are those at the end of the run, but for the code
of one account at most. -/
theorem recoded_execute {gasLimit : UInt64} {tx : Transaction} {before m : Machine}
    (h : tx.prepare gasLimit before = .ok m) :
    Recoded (Machine.step^[m.stepBound] m).accounts
      (stateAfter (execute gasLimit tx before)).accounts := by
  have runs : m.run.2 = Machine.step^[m.stepBound] m := Machine.runFor_eq_iterate _ m
  rw [execute_apply, h, ← runs]
  exact recoded_conclude refuse tx m.run.1 m.run.2

end HarnessM

end EvmHarness
