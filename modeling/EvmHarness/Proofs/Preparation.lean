import EvmHarness.Transaction
set_option autoImplicit false

/-!
# Prepared transactions

A transaction is refused only where the sender does not have its value: the destination has a
record by the time it is loaded.  What is prepared is given here in one piece.
-/

namespace EvmHarness

namespace Accounts

theorem getElem?_update_self (accounts : Accounts) (a : Address) (f : Account → Account) :
    (accounts.update a f)[a]? = some (f (accounts.read a)) := by
  rw [getElem?_update, if_pos rfl]

theorem read_eq_of_getElem? {accounts : Accounts} {a : Address} {record : Account}
    (h : accounts[a]? = some record) : accounts.read a = record := by
  rw [read, Std.ExtTreeMap.getD_eq_getD_getElem?, h, Option.getD_some]

end Accounts

namespace Transaction

/-- The account records that the first instruction finds. -/
def openingAccounts (tx : Transaction) (accounts : Accounts) : Accounts :=
  tx.arrive (tx.charge accounts.endTransaction)

/-- The machine in front of the first instruction. -/
def opening (tx : Transaction) (gasLimit : UInt64) (before : Machine) : Machine where
  setting := { before.setting with
    block := tx.delayed before.setting.block
    tx := { origin := tx.sender, gasPrice := tx.gasPrice } }
  active :=
    { frame := { (tx.firstFrame gasLimit).setCode
          ((tx.openingAccounts before.accounts).read tx.destination).code with
        account := tx.destination, codeAccount := tx.destination }
      world :=
        { accounts := tx.openingAccounts before.accounts
          accessed := ((∅ : Std.ExtTreeSet Address).insert tx.sender).insert tx.destination
          logs := #[] } }
  suspended := []
  result := none

/-- The destination has a record once the value has arrived. -/
theorem getElem?_arrive (tx : Transaction) (accounts : Accounts) :
    ∃ record, (tx.arrive accounts)[tx.destination]? = some record := by
  unfold arrive
  cases tx.action with
  | call data => exact ⟨_, Accounts.getElem?_update_self _ _ _⟩
  | create initCode => exact ⟨_, Std.ExtTreeMap.getElem?_insert_self⟩

theorem mem_openingAccounts (tx : Transaction) (accounts : Accounts) :
    tx.destination ∈ tx.openingAccounts accounts := by
  obtain ⟨record, found⟩ := tx.getElem?_arrive (tx.charge accounts.endTransaction)
  exact Std.ExtTreeMap.mem_iff_isSome_getElem?.2 (Option.isSome_of_eq_some found)

theorem prepare_apply (tx : Transaction) (gasLimit : UInt64) (before : Machine) :
    tx.prepare gasLimit before =
      if before.accounts.balance tx.sender < tx.value then
        .error (.insufficientBalance tx.sender (before.accounts.balance tx.sender) tx.value)
      else .ok (tx.opening gasLimit before) := by
  obtain ⟨record, hrecord⟩ := tx.getElem?_arrive (tx.charge before.accounts.endTransaction)
  have hread : (tx.openingAccounts before.accounts).read tx.destination = record :=
    Accounts.read_eq_of_getElem? hrecord
  unfold prepare opening Machine.load
  dsimp only
  rw [hread]
  split
  · rfl
  · have hload : ∀ m : Machine,
        m.accounts = tx.arrive (tx.charge before.accounts.endTransaction) →
          m.accounts[tx.destination]? = some record := fun m hm => by rw [hm, hrecord]
    rw [hload _ rfl]
    rfl

/-- A transaction is prepared where the sender has its value. -/
theorem prepare_eq_ok {tx : Transaction} {gasLimit : UInt64} {before m : Machine} :
    tx.prepare gasLimit before = .ok m ↔
      tx.value ≤ before.accounts.balance tx.sender ∧ m = tx.opening gasLimit before := by
  rw [prepare_apply]
  split
  · rename_i h
    simp [BitVec.not_le.2 h]
  · rename_i h
    simp [BitVec.not_lt.1 h, eq_comm]

/-- A prepared machine has one frame, which has not ended. -/
theorem starts_alone {tx : Transaction} {gasLimit : UInt64} {before m : Machine}
    (h : tx.prepare gasLimit before = .ok m) : m.result = none ∧ m.suspended = [] := by
  obtain ⟨_, rfl⟩ := prepare_eq_ok.1 h
  exact ⟨rfl, rfl⟩

end Transaction

/-- A machine that holds the code of one account, which a transaction can run, and of another. -/
def Machine.ofCodes (first second : ByteArray) : Machine :=
  Machine.initial.mapWorld (·.mapAccounts fun accounts =>
    (accounts.insert 1 (.ofCode first)).insert 2 (.ofCode second))

/-- A call of the first account. -/
def Transaction.ofFirst : Transaction := .ofCall 3 1 ByteArray.empty

theorem Transaction.prepare_ofFirst (gasLimit : UInt64) (before : Machine) :
    ofFirst.prepare gasLimit before = .ok (ofFirst.opening gasLimit before) :=
  prepare_eq_ok.2 ⟨BitVec.le_def.2 (Nat.zero_le _), rfl⟩

end EvmHarness
