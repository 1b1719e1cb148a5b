import EvmHarness.Proofs.HeldCode
import EvmHarness.Proofs.LookUp
import EvmHarness.Proofs.MachineRun
set_option autoImplicit false

/-!
# Accounts that are not known

In a strict setting an account without a record is not taken for an empty one: what names it on the
stack ends its frame with a failure, and makes no record for it.  Self-destruction alone does not
ask: it sends its balance to an address whether or not there is a record.
-/

namespace EvmHarness

namespace Accounts

variable {xs : Accounts} {a b : Address}

/-- Where there was no record, a self-destruction makes one exactly where it sends something. -/
theorem mem_destroy_of_missing (missing : b ∉ xs) :
    b ∈ xs.destroy a b ↔ b ≠ a ∧ xs.balance a ≠ 0 := by
  have erased : b ∉ xs.erase a := fun kept => missing (Std.ExtTreeMap.mem_of_mem_erase kept)
  unfold destroy
  dsimp only
  split
  · rename_i sends
    exact ⟨fun _ => sends, fun _ => (mem_update _ _ _ _).2 (.inl rfl)⟩
  · rename_i keeps
    exact ⟨fun kept => absurd kept erased, fun sends => absurd sends keeps⟩

end Accounts

namespace Machine

variable {s : Machine} {op : Operation} {address : Address}

/-- The account records after a failure of the running frame: those that its caller has kept, or
without a caller those that the frame has left. -/
def accountsAfterFailure (s : Machine) (left : Accounts) : Accounts :=
  match s.suspended with
  | [] => left
  | caller :: _ => caller.reversion

theorem accounts_of_fault {fault : Fault} {b : Active} (running : s.result = none) (room : s.Room)
    (fails : Action.instruction s.environment s.active = .error fault b) :
    s.step.accounts = s.accountsAfterFailure b.world.accounts := by
  rw [step_of_ends running (.fault fails)]
  unfold accountsAfterFailure
  cases hs : s.suspended with
  | nil => rfl
  | cons caller rest =>
      have waits : caller ∈ s.suspended := hs ▸ List.mem_cons_self
      obtain ⟨f, resumed, _⟩ := Suspended.resume_eq_ok (room caller waits) b.frame.gas
        (.failure fault) b.world
      rw [unwind_of_resume_ok resumed]
      rfl

/-- The next step ends the running frame with such a fault and makes no record: afterwards the
records are those of now, or those that the caller has kept. -/
def StepFails (s : Machine) (P : Fault → Prop) : Prop :=
  ∃ fault b, s.Ends (.failure fault) b ∧ P fault ∧ b.world.accounts = s.accounts ∧
    s.step.accounts = s.accountsAfterFailure s.accounts

theorem stepFails_of_fails {P : Fault → Prop} (running : s.result = none) (room : s.Room)
    (fails : Action.Fails P Action.instruction s.environment s.active) : s.StepFails P := by
  obtain ⟨fault, b, failed, hp, same⟩ := fails
  refine ⟨fault, b, .fault failed, hp, same, ?_⟩
  rw [accounts_of_fault running room failed, same]
  rfl

/-- In a strict setting, an operation that names an address without a record fails: at the look-up
with the fault that names the address, or in a check before it.  It makes no record there.  The one
operation that does not look the account up is self-destruction: it fails in a check, or it
succeeds, and then it has made a record for the address exactly where it has sent something to
it. -/
theorem unknown_account_never_assumed (reachable : s.Reachable) (running : s.result = none)
    (strict : s.setting.strict = true) (hop : s.active.operation? = some op)
    (named : op.named? s.frame.stack.words = some address) (missing : address ∉ s.accounts) :
    (op ≠ .selfDestruct → s.StepFails (s.active.LookUpFault op address)) ∧
      (op = .selfDestruct →
        s.StepFails (s.active.FailsFirst op address) ∨
          ∃ b, s.Ends (.success ByteArray.empty) b ∧
            (address ∈ b.world.accounts ↔
              address ≠ s.frame.account ∧ s.accounts.balance s.frame.account ≠ 0)) := by
  have room := reachable.room
  have none : s.active.world.accounts[address]? = none := Std.ExtTreeMap.getElem?_eq_none missing
  constructor
  · intro looks
    exact stepFails_of_fails running room
      (Action.instruction_fails_at_lookUp hop named looks strict none)
  · rintro rfl
    obtain fails | ⟨b, destroyed, accounts⟩ :=
      Action.instruction_fails_or_destroys s.environment hop named
    · exact .inl (stepFails_of_fails running room fails)
    · refine .inr ⟨b, .halt destroyed, ?_⟩
      rw [accounts]
      exact Accounts.mem_destroy_of_missing missing

/-- A strict machine with one account, which a transaction has started to run. -/
def startedStrictly (code : ByteArray) (balance : Word) : Machine :=
  let m := initial.mapWorld (·.mapAccounts (·.insert 1 { Account.ofCode code with balance }))
  Transaction.ofFirst.opening 100000 { m with setting := { m.setting with strict := true } }

theorem reachable_startedStrictly (code : ByteArray) (balance : Word) (n : Nat) :
    (step^[n] (startedStrictly code balance)).Reachable :=
  (Reachable.prepared (Transaction.prepare_ofFirst _ _)).iterate n

/-- The look-up of code fails as well. -/
example : (startedStrictly ⟨#[0x60, 0xbb, 0x3b]⟩ 7).run.1 = .failure (.unknownAccount 0xbb) := by
  decide +kernel

/-- An account that asks for the balance of another one. -/
def asking : Machine := step^[1] (startedStrictly ⟨#[0x60, 0xbb, 0x31]⟩ 7)

theorem asking_fails_at_lookUp :
    asking.StepFails (asking.active.LookUpFault (.account .balance) 0xbb) ∧
      asking.step.result = some (.failure (.unknownAccount 0xbb)) ∧
      (0xbb : Address) ∉ asking.step.accounts := by
  have hop : asking.active.operation? = some (.account .balance) := by decide +kernel
  have named : (Operation.account .balance).named? asking.frame.stack.words = some 0xbb := by
    decide +kernel
  obtain ⟨fails, _⟩ := unknown_account_never_assumed (reachable_startedStrictly _ _ 1)
    (by decide +kernel) (by decide +kernel) hop named (by decide +kernel)
  exact ⟨fails (by decide), by decide +kernel, by decide +kernel⟩

/-- An account that destroys itself in favour of another one. -/
def leaving : Machine := step^[1] (startedStrictly ⟨#[0x60, 0xbb, 0xff]⟩ 7)

/-- No record is asked for, and one is made. -/
theorem leaving_makes_record :
    leaving.Reachable ∧ leaving.result = none ∧ leaving.setting.strict = true ∧
      leaving.active.operation? = some .selfDestruct ∧
      Operation.selfDestruct.named? leaving.frame.stack.words = some 0xbb ∧
      (0xbb : Address) ∉ leaving.accounts ∧
      leaving.step.result = some (.success ByteArray.empty) ∧
      (0xbb : Address) ∈ leaving.step.accounts :=
  ⟨reachable_startedStrictly _ _ 1, by decide +kernel, by decide +kernel, by decide +kernel,
    by decide +kernel, by decide +kernel, by decide +kernel, by decide +kernel⟩

end Machine

end EvmHarness
