import EvmHarness.Proofs.Preparation
import Mathlib.Algebra.Ring.Nat
set_option autoImplicit false

/-!
# The sum of all balances

What the changes to account records do to the sum of all balances.  A record counts once, so
writing one exchanges its old balance for the new; a transfer is two such writes, and a credit that
stops at the largest word is the only place where value can go missing in it.
-/

namespace EvmHarness

namespace Account

/-- A credit adds at most the value. -/
theorem credit_balance_le (a : Account) (value : Word) :
    (a.credit value).balance.toNat ≤ a.balance.toNat + value.toNat := by
  show BitVec.toNat (if a.balance.uaddOverflow value then _ else _) ≤ _
  split
  · rename_i h
    have hover : 2 ^ 256 ≤ a.balance.toNat + value.toNat := by
      simpa [BitVec.uaddOverflow] using h
    exact Nat.le_trans (Nat.le_of_lt (BitVec.isLt _)) hover
  · rw [BitVec.toNat_add]
    exact Nat.mod_le _ _

/-- A credit adds the value where the sum is a word. -/
theorem credit_balance (a : Account) (value : Word)
    (h : a.balance.toNat + value.toNat < 2 ^ 256) :
    (a.credit value).balance.toNat = a.balance.toNat + value.toNat := by
  show BitVec.toNat (if a.balance.uaddOverflow value then _ else _) = _
  split
  · rename_i hover
    have hover : 2 ^ 256 ≤ a.balance.toNat + value.toNat := by
      simpa [BitVec.uaddOverflow] using hover
    exact absurd h (Nat.not_lt_of_le hover)
  · rw [BitVec.toNat_add, Nat.mod_eq_of_lt h]

end Account

namespace Accounts

/-- The sum of the balances of all records. -/
def total (accounts : Accounts) : Nat := (accounts.toList.map fun p => p.2.balance.toNat).sum

variable (accounts : Accounts) (a : Address)

theorem nodup_toList : accounts.toList.Nodup := by
  refine Std.ExtTreeMap.distinct_keys_toList.imp fun h heq => h ?_
  rw [heq]
  exact Std.ReflCmp.compare_self

/-- A record that is written stands beside those at the other addresses. -/
theorem toList_insert_perm (record : Account) :
    (accounts.insert a record).toList.Perm ((a, record) :: (accounts.erase a).toList) := by
  have fresh : (a, record) ∉ (accounts.erase a).toList := by
    rw [Std.ExtTreeMap.mem_toList_iff_getElem?_eq_some, Std.ExtTreeMap.getElem?_erase_self]
    exact nofun
  refine (List.perm_ext_iff_of_nodup (nodup_toList _)
    (List.nodup_cons.2 ⟨fresh, nodup_toList _⟩)).2 ?_
  rintro ⟨b, found⟩
  rw [List.mem_cons, Std.ExtTreeMap.mem_toList_iff_getElem?_eq_some,
    Std.ExtTreeMap.mem_toList_iff_getElem?_eq_some, Std.ExtTreeMap.getElem?_insert,
    Std.ExtTreeMap.getElem?_erase]
  by_cases hab : a = b
  · subst hab
    simp [eq_comm]
  · have hba : b ≠ a := fun h => hab h.symm
    simp [hab, hba]

theorem total_insert_erase (record : Account) :
    total (accounts.insert a record) = record.balance.toNat + total (accounts.erase a) :=
  ((toList_insert_perm accounts a record).map _).sum_nat

/-- Removing a record takes its balance out of the sum. -/
theorem total_erase :
    total (accounts.erase a) + (accounts.balance a).toNat = accounts.total := by
  unfold balance
  cases hr : accounts[a]? with
  | none =>
      have herase : accounts.erase a = accounts := by
        refine Std.ExtTreeMap.ext_getElem? fun b => ?_
        rw [Std.ExtTreeMap.getElem?_erase]
        by_cases hab : a = b
        · rw [← hab, hr]
          simp
        · simp [hab]
      rw [herase, read, Std.ExtTreeMap.getD_eq_getD_getElem?, hr]
      rfl
  | some record =>
      have hinsert : accounts.insert a record = accounts := by
        refine Std.ExtTreeMap.ext_getElem? fun b => ?_
        rw [Std.ExtTreeMap.getElem?_insert]
        by_cases hab : a = b
        · rw [← hab, hr]
          simp
        · simp [hab]
      have hsum := total_insert_erase accounts a record
      rw [hinsert] at hsum
      rw [read_eq_of_getElem? hr, hsum, Nat.add_comm]

/-- No balance is more than the sum of all. -/
theorem balance_le_total : (accounts.balance a).toNat ≤ accounts.total := by
  have := total_erase accounts a
  omega

/-- Writing a record exchanges its old balance for the new. -/
theorem total_insert (record : Account) :
    total (accounts.insert a record) + (accounts.balance a).toNat =
      accounts.total + record.balance.toNat := by
  have hinsert := total_insert_erase accounts a record
  have herase := total_erase accounts a
  omega

theorem total_update (f : Account → Account) :
    (accounts.update a f).total + (accounts.balance a).toNat =
      accounts.total + (f (accounts.read a)).balance.toNat :=
  total_insert accounts a (f (accounts.read a))

/-- A change that leaves the balance alone leaves the sum alone. -/
theorem total_update_of_balance {f : Account → Account}
    (h : (f (accounts.read a)).balance = accounts.balance a) :
    (accounts.update a f).total = accounts.total := by
  have := total_update accounts a f
  rw [h] at this
  omega

/-! ## Moving value -/

variable {accounts a}

/-- Taking no more than is there takes just that out of the sum. -/
theorem total_debit {value : Word} {f : Account → Account} (covered : value ≤ accounts.balance a)
    (h : (f (accounts.read a)).balance = accounts.balance a - value) :
    (accounts.update a f).total + value.toNat = accounts.total := by
  have hupdate := total_update accounts a f
  have hle : value.toNat ≤ (accounts.balance a).toNat := BitVec.le_def.1 covered
  rw [h, BitVec.toNat_sub_of_le covered] at hupdate
  omega

theorem total_credit_le (accounts : Accounts) (a : Address) (value : Word) :
    (accounts.update a (·.credit value)).total ≤ accounts.total + value.toNat := by
  have hupdate := total_update accounts a (·.credit value)
  have hcredit := (accounts.read a).credit_balance_le value
  show total _ ≤ _
  have hbalance : (accounts.read a).balance = accounts.balance a := rfl
  rw [hbalance] at hcredit
  omega

/-- Where all value is less than a word can hold, nothing is lost in a credit. -/
theorem total_credit {value : Word} (fits : accounts.total + value.toNat < 2 ^ 256) :
    (accounts.update a (·.credit value)).total = accounts.total + value.toNat := by
  have hupdate := total_update accounts a (·.credit value)
  have hle := balance_le_total accounts a
  have hcredit : _ = (accounts.balance a).toNat + value.toNat :=
    (accounts.read a).credit_balance value (Nat.lt_of_le_of_lt (Nat.add_le_add_right hle _) fits)
  omega

/-- A transfer loses at most value. -/
theorem total_transfer_le {sender receiver : Address} {value : Word} {moved : Accounts}
    (h : accounts.transfer? sender receiver value = some moved) :
    moved.total ≤ accounts.total := by
  unfold transfer? at h
  split at h
  · exact absurd h nofun
  · rename_i covered
    split at h
    · obtain rfl := Option.some.inj h
      exact Nat.le_refl _
    · obtain rfl := Option.some.inj h
      have debited := total_debit (f := fun a => { a with balance := a.balance - value })
        (BitVec.not_lt.1 covered) rfl
      have credited := total_credit_le
        (accounts.update sender fun a => { a with balance := a.balance - value }) receiver value
      exact Nat.le_trans credited (Nat.le_of_eq debited)

/-- A transfer keeps the sum of all balances. -/
theorem total_transfer (fits : accounts.total < 2 ^ 256) {sender receiver : Address} {value : Word}
    {moved : Accounts} (h : accounts.transfer? sender receiver value = some moved) :
    moved.total = accounts.total := by
  unfold transfer? at h
  split at h
  · exact absurd h nofun
  · rename_i covered
    split at h
    · obtain rfl := Option.some.inj h
      rfl
    · obtain rfl := Option.some.inj h
      have debited := total_debit (f := fun a => { a with balance := a.balance - value })
        (BitVec.not_lt.1 covered) rfl
      exact (total_credit (debited ▸ fits)).trans debited

/-- A removal keeps at most the value that was there. -/
theorem total_destroy_le (accounts : Accounts) (a beneficiary : Address) :
    (accounts.destroy a beneficiary).total ≤ accounts.total := by
  have removed := total_erase accounts a
  unfold destroy
  dsimp only
  split
  · exact Nat.le_trans (total_credit_le _ _ _) (Nat.le_of_eq removed)
  · exact Nat.le_trans (Nat.le_add_right _ _) (Nat.le_of_eq removed)

/-- A removal for another account keeps the sum of all balances. -/
theorem total_destroy (fits : accounts.total < 2 ^ 256) {beneficiary : Address}
    (other : beneficiary ≠ a) : (accounts.destroy a beneficiary).total = accounts.total := by
  have removed := total_erase accounts a
  unfold destroy
  dsimp only
  split
  · exact (total_credit (removed ▸ fits)).trans removed
  · rename_i h
    have hzero : accounts.balance a = 0 := by
      by_cases hb : accounts.balance a = 0
      · exact hb
      · exact absurd ⟨other, hb⟩ h
    rw [hzero] at removed
    exact removed

/-! ## The start of a transaction -/

theorem total_endTransaction (accounts : Accounts) :
    accounts.endTransaction.total = accounts.total := by
  unfold endTransaction total
  rw [Std.ExtTreeMap.toList_map, List.map_map]
  rfl

theorem balance_endTransaction (accounts : Accounts) (a : Address) :
    accounts.endTransaction.balance a = accounts.balance a := by
  unfold endTransaction balance read
  rw [Std.ExtTreeMap.getD_eq_getD_getElem?, Std.ExtTreeMap.getD_eq_getD_getElem?,
    Std.ExtTreeMap.getElem?_map]
  cases accounts[a]? <;> rfl

end Accounts

namespace Transaction

open Accounts (total_debit total_credit total_credit_le total_insert total_endTransaction
  balance_endTransaction)

/-- The balance that is there no more once a creation has replaced the record at its
destination. -/
def replaced (tx : Transaction) (accounts : Accounts) : Nat :=
  match tx.action with
  | .call _ => 0
  | .create _ => ((tx.charge accounts.endTransaction).balance tx.destination).toNat

variable {tx : Transaction} {accounts : Accounts}

theorem total_charge (covered : tx.value ≤ accounts.balance tx.sender) :
    (tx.charge accounts.endTransaction).total + tx.value.toNat = accounts.total := by
  have covered' : tx.value ≤ accounts.endTransaction.balance tx.sender := by
    rw [balance_endTransaction]
    exact covered
  have debited := total_debit (f := fun a =>
    { a with balance := a.balance - tx.value, nonce := Saturating.add a.nonce 1 }) covered' rfl
  rw [total_endTransaction] at debited
  exact debited

/-- A transaction starts with at most the value that was there. -/
theorem total_openingAccounts_le (covered : tx.value ≤ accounts.balance tx.sender) :
    (tx.openingAccounts accounts).total ≤ accounts.total := by
  have charged := total_charge covered
  unfold openingAccounts arrive
  cases tx.action with
  | call data => exact Nat.le_trans (total_credit_le _ _ _) (Nat.le_of_eq charged)
  | create initCode =>
      have arrived := total_insert (tx.charge accounts.endTransaction) tx.destination
        { Account.ofCode initCode with balance := tx.value }
      have arrived : Accounts.total _ + _ = _ + tx.value.toNat := arrived
      exact Nat.le_trans (Nat.le_add_right _ _) (Nat.le_of_eq (arrived.trans charged))

/-- It starts with all of it but the balance that a creation replaces. -/
theorem total_openingAccounts (covered : tx.value ≤ accounts.balance tx.sender)
    (fits : accounts.total < 2 ^ 256) :
    (tx.openingAccounts accounts).total + tx.replaced accounts = accounts.total := by
  have charged := total_charge covered
  unfold openingAccounts arrive replaced
  cases tx.action with
  | call data => exact (total_credit (charged ▸ fits)).trans charged
  | create initCode =>
      have arrived := total_insert (tx.charge accounts.endTransaction) tx.destination
        { Account.ofCode initCode with balance := tx.value }
      exact arrived.trans charged

end Transaction

end EvmHarness
