import EvmHarness.Proofs.RecordRun
import EvmHarness.Proofs.RunInvariant
set_option autoImplicit false

/-!
# An account loses nothing while it does not run

Whatever other accounts do, they can only send value to an account for which no frame runs.  An
account that is built does run, and code is deposited for it alone; so neither a creation nor the
end of one touches the record, and a record that a failure brings back was spared before.
-/

namespace EvmHarness

namespace Account

/-- The second record is the first one with no less balance. -/
structure Gains (r r' : Account) : Prop where
  same : r' = { r with balance := r'.balance }
  balance : r.balance ≤ r'.balance

variable {r r' r'' : Account}

theorem Gains.refl (r : Account) : r.Gains r := ⟨rfl, BitVec.le_refl _⟩

theorem Gains.trans (h : r.Gains r') (h' : r'.Gains r'') : r.Gains r'' := by
  refine ⟨?_, BitVec.le_trans h.balance h'.balance⟩
  rw [h'.same, h.same]

theorem gains_credit (r : Account) (value : Word) : r.Gains (r.credit value) := by
  refine ⟨rfl, ?_⟩
  unfold credit
  dsimp only
  split
  · rw [BitVec.le_def, BitVec.toNat_allOnes]
    exact Nat.le_pred_of_lt r.balance.isLt
  · rename_i fits
    rw [BitVec.le_def, BitVec.toNat_add_of_not_uaddOverflow fits]
    exact Nat.le_add_right _ _

/-- What was recorded at an address is still there but for balance that has come, and where there
was no record, a new one has no more than that. -/
inductive Spared : Option Account → Option Account → Prop where
  | kept {r r' : Account} (h : r.Gains r') : Spared (some r) (some r')
  | absent : Spared none none
  | come {r : Account} (h : empty.Gains r) : Spared none (some r)

variable {o x y : Option Account}

theorem Spared.refl (o : Option Account) : Spared o o := by
  cases o with
  | none => exact .absent
  | some r => exact .kept (.refl r)

/-- Balance may come to what has been spared. -/
theorem Spared.credit (h : Spared o x) (value : Word) :
    Spared o (some ((x.getD .empty).credit value)) := by
  cases h with
  | kept h => exact .kept (h.trans (gains_credit _ value))
  | absent => exact .come (gains_credit _ value)
  | come h => exact .come (h.trans (gains_credit _ value))

/-- Frames of other accounts spare a record, unless an account is built there. -/
theorem Spared.reaches {own site : Prop} (h : Spared o x) (other : ¬ own) (elsewhere : ¬ site)
    (hr : Account.Reaches own site x y) : Spared o y := by
  induction hr with
  | refl => exact h
  | tail _ ha ih =>
      cases ha with
      | credit value => exact ih.credit value
      | construct code h => exact absurd h elsewhere
      | storage s h => exact absurd h other
      | count h countable => exact absurd h other
      | debit value h => exact absurd h other
      | remove h => exact absurd h other

end Account

namespace Machine

/-- The running frame runs for another account, whose record has been spared. -/
structure RunsBeside (a : Address) (start : Option Account) (b : Active) : Prop where
  other : b.frame.account ≠ a
  spared : Account.Spared start b.world.accounts[a]?

/-- A suspended frame runs for another account and builds another, and the record that it would
bring back has been spared. -/
structure WaitsBeside (a : Address) (start : Option Account) (s : Suspended) : Prop where
  other : s.frame.account ≠ a
  elsewhere : s.purpose ≠ .create a
  spared : Account.Spared start s.reversion[a]?

variable {a : Address} {start : Option Account} {m : Machine}

/-- Such a caller goes on with a spared record. -/
theorem WaitsBeside.settled {s : Suspended} {w : World} (h : WaitsBeside a start s)
    (hw : Account.Spared start w.accounts[a]?) (gasLeft : Nat) (outcome : Outcome) :
    Account.Spared start (s.settled gasLeft outcome w).accounts[a]? := by
  obtain ⟨_, heq⟩ | ⟨address, code, hcreate, _, heq⟩ | heq := s.settled_cases gasLeft outcome w
  · rw [heq]
    exact hw
  · have hother : address ≠ a := fun hab => h.elsewhere (hab ▸ hcreate)
    rw [heq, World.mapAccounts_accounts, Accounts.getElem?_update, if_neg hother]
    exact hw
  · rw [heq]
    exact h.spared

/-- If the next state does not run for the account either, its record is spared. -/
theorem carries_spared (running : m.result = none) (next : m.step.frame.account ≠ a) :
    m.Carries (.uniform (RunsBeside a start) (WaitsBeside a start)) where
  proceed := by
    intro b ha h
    have other : a ≠ m.active.frame.account := ha.other.symm
    refine ⟨(Action.instruction_frame h).account ▸ ha.other, ?_⟩
    exact ha.spared.reaches other id (Action.instruction_record h a)
  enter := by
    intro callee purpose reversion b ha h
    have other : a ≠ m.active.frame.account := ha.other.symm
    have enters := Action.instruction_enters h
    rw [step_of_enter running h] at next
    -- an account that is built runs its initial code next
    have elsewhere : purpose ≠ .create a := fun hp => next (enters.account a hp)
    refine ⟨⟨next, ha.spared.reaches other elsewhere (enters.sites.record a)⟩, ?_, elsewhere, ?_⟩
    · exact enters.frame.account ▸ ha.other
    · show Account.Spared start reversion[a]?
      rw [enters.restores]
      exact ha.spared.reaches other id (m.active.restored_record _ a)
  ends := by
    intro outcome b ha ends
    have other : a ≠ m.active.frame.account := ha.other.symm
    exact ⟨ends.frame.account ▸ ha.other, ha.spared.reaches other id (ends.record a)⟩
  resume := by
    intro outcome b s rest f hs hb runs
    exact ⟨runs.account ▸ hs.other, hs.settled hb.spared _ _⟩

/-- As long as no frame of a run has run for an account, its record is what it was when the
transaction was prepared, but for balance that has come; where it had none, it has none or one with
nothing but balance. -/
theorem idle_account_spared {tx : Transaction} {gasLimit : UInt64} {before : Machine} {n : Nat}
    (h : tx.prepare gasLimit before = .ok m)
    (idle : ∀ k ≤ n, (step^[k] m).frame.account ≠ a) :
    Account.Spared m.accounts[a]? (step^[n] m).accounts[a]? := by
  have start : RunsBeside a m.accounts[a]? m.active := ⟨idle 0 (Nat.zero_le n), .refl _⟩
  have holds : (step^[n] m).Holds (.uniform (RunsBeside a m.accounts[a]?)
      (WaitsBeside a m.accounts[a]?)) [] := by
    apply holds_run h start n
    intro k hk running
    have next := idle (k + 1) hk
    rw [Function.iterate_succ_apply'] at next
    exact carries_spared running next
  exact holds.active.spared

/-- A machine about to run an account that sends 7 to another one, which has a balance of 5. -/
def payment : Machine :=
  Transaction.ofFirst.opening 100000 (initial.mapWorld (·.mapAccounts fun accounts =>
    (accounts.insert 1 { Account.ofCode
      ⟨#[0x5f, 0x5f, 0x5f, 0x5f, 0x60, 7, 0x60, 2, 0x5a, 0xf1]⟩ with balance := 10 }).insert 2
        { Account.empty with balance := 5 }))

theorem payment_spares_payee :
    (step^[8] payment).accounts.balance 2 = 12 ∧
      Account.Spared payment.accounts[(2 : Address)]?
        (step^[8] payment).accounts[(2 : Address)]? := by
  have idle : ∀ k ≤ 8, (step^[k] payment).frame.account ≠ 2 := by decide +kernel
  exact ⟨by decide +kernel, idle_account_spared (Transaction.prepare_ofFirst _ _) idle⟩

end Machine

end EvmHarness
