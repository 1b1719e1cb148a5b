import EvmHarness.Proofs.Conclusion
set_option autoImplicit false

/-!
# Every transaction starts afresh

Of the machine that a transaction finds, its preparation reads the block, how unknown accounts are
treated, and what of the account records outlives a transaction.  Everything else it replaces or
forgets: the frames, the result, the logs, the touched addresses and slots and the transient slots of
an earlier transaction cannot be told from those of a new machine.
-/

namespace EvmHarness

/-- The records are the same but for what lasts for a transaction. -/
structure Account.AgreesAtRest (r r' : Account) : Prop where
  code : r.code = r'.code
  codeHash : r.codeHash = r'.codeHash
  balance : r.balance = r'.balance
  nonce : r.nonce = r'.nonce
  persistent : r.storage.persistent = r'.storage.persistent

/-- The machines find the same at the start of a transaction: the same block and setting, and at
every address no record in both or records that agree at rest. -/
structure Machine.AgreesAtRest (m n : Machine) : Prop where
  block : m.setting.block = n.setting.block
  strict : m.setting.strict = n.setting.strict
  records : ∀ a : Address, Option.Rel Account.AgreesAtRest m.accounts[a]? n.accounts[a]?

namespace Account.AgreesAtRest

/-- Once what lasts for a transaction is forgotten, records that agree at rest are the same. -/
theorem endTransaction {r r' : Account} (h : r.AgreesAtRest r') :
    { r with storage := r.storage.endTransaction } =
      { r' with storage := r'.storage.endTransaction } := by
  rcases r with ⟨code, ⟨persistent, transient, warm⟩, balance, nonce, codeHash⟩
  rcases r' with ⟨code', ⟨persistent', transient', warm'⟩, balance', nonce', codeHash'⟩
  simp only [Storage.endTransaction, Account.mk.injEq, Storage.mk.injEq, and_true]
  exact ⟨h.code, h.persistent, h.balance, h.nonce, h.codeHash⟩

/-- What reads only what records at rest agree on reads the same at an address. -/
theorem map_eq {α : Type} {read : Account → α}
    (reads : ∀ r r' : Account, r.AgreesAtRest r' → read r = read r') {o o' : Option Account}
    (h : Option.Rel AgreesAtRest o o') : o.map read = o'.map read := by
  cases h with
  | none => rfl
  | some h => rw [Option.map_some, Option.map_some, reads _ _ h]

end Account.AgreesAtRest

namespace Machine.AgreesAtRest

variable {m n : Machine} (agree : m.AgreesAtRest n)
include agree

theorem endTransaction : m.accounts.endTransaction = n.accounts.endTransaction := by
  apply Std.ExtTreeMap.ext_getElem?
  intro a
  simp only [Accounts.endTransaction, Std.ExtTreeMap.getElem?_map]
  exact Account.AgreesAtRest.map_eq (fun _ _ h => h.endTransaction) (agree.records a)

theorem balance (a : Address) : m.accounts.balance a = n.accounts.balance a := by
  have same := Account.AgreesAtRest.map_eq (fun _ _ h => h.balance) (agree.records a)
  simp only [Accounts.balance, Accounts.read, Std.ExtTreeMap.getD_eq_getD_getElem?]
  rw [← Option.getD_map Account.balance, same, Option.getD_map]

theorem opening (tx : Transaction) (gasLimit : UInt64) :
    tx.opening gasLimit m = tx.opening gasLimit n := by
  have accounts : tx.openingAccounts m.accounts = tx.openingAccounts n.accounts := by
    simp only [Transaction.openingAccounts, agree.endTransaction]
  simp only [Transaction.opening, accounts, agree.block, agree.strict]

theorem prepare (tx : Transaction) (gasLimit : UInt64) :
    tx.prepare gasLimit m = tx.prepare gasLimit n := by
  rw [Transaction.prepare_apply, Transaction.prepare_apply, agree.balance, agree.opening]

end Machine.AgreesAtRest

/-- Machines that agree at rest go through a transaction alike, by any strategy: both accept it, to
the same end, or both refuse it for the same reason and stay as they are. -/
theorem HarnessM.executeWith_starts_afresh {m n : Machine} (agree : m.AgreesAtRest n)
    (gasLimit : UInt64) (handler : Fault → Except TxFault Unit) (strategy : Strategy)
    (tx : Transaction) :
    (∃ ready, tx.prepare gasLimit m = .ok ready ∧ tx.prepare gasLimit n = .ok ready ∧
        executeWith gasLimit handler strategy tx m =
          executeWith gasLimit handler strategy tx n) ∨
      (∃ fault, fault = .insufficientBalance tx.sender (m.accounts.balance tx.sender) tx.value ∧
        tx.prepare gasLimit m = .error fault ∧ tx.prepare gasLimit n = .error fault ∧
        executeWith gasLimit handler strategy tx m = .error fault m ∧
        executeWith gasLimit handler strategy tx n = .error fault n) := by
  have prepares := agree.prepare tx gasLimit
  simp only [executeWith_apply, ← prepares]
  cases h : tx.prepare gasLimit m with
  | ok ready =>
      left
      exact ⟨ready, rfl, rfl, rfl⟩
  | error fault =>
      right
      refine ⟨fault, ?_, rfl, rfl, rfl, rfl⟩
      rw [Transaction.prepare_apply] at h
      split at h
      · exact (Except.error.inj h).symm
      · exact absurd h nofun

namespace Machine

/-- The machine as it would be had it not run: what the records keep, and nothing else. -/
def atRest (m : Machine) : Machine :=
  { initial with
    setting := { m.setting with tx := default }
    active := { initial.active with
      world := { initial.active.world with accounts := m.accounts.endTransaction } } }

theorem agreesAtRest_atRest (m : Machine) : m.AgreesAtRest m.atRest where
  block := rfl
  strict := rfl
  records := by
    intro a
    show Option.Rel _ _ m.accounts.endTransaction[a]?
    rw [Accounts.endTransaction, Std.ExtTreeMap.getElem?_map]
    cases m.accounts[a]? with
    | none => exact .none
    | some record => exact .some ⟨rfl, rfl, rfl, rfl, rfl⟩

/-- A machine that has been left in the middle of a call, with a slot read and one set for the
transaction. -/
def halfway : Machine :=
  step^[13] (Transaction.ofFirst.opening 100000 (ofCodes
    ⟨#[0x5f, 0x5f, 0x5f, 0x5f, 0x5f, 0x60, 2, 0x5a, 0xf1]⟩
    ⟨#[0x5f, 0x54, 0x60, 7, 0x5f, 0x5d, 0x00]⟩))

theorem halfway_starts_afresh :
    halfway.depth = 1 ∧ (halfway.accounts.read 2).storage.warm ≠ ∅ ∧
      (halfway.accounts.read 2).storage.transient ≠ ∅ ∧
      HarnessM.execute 100000 Transaction.ofFirst halfway =
        HarnessM.execute 100000 Transaction.ofFirst halfway.atRest := by
  have afresh := HarnessM.executeWith_starts_afresh halfway.agreesAtRest_atRest 100000
    HarnessM.refuse run Transaction.ofFirst
  refine ⟨by decide +kernel, by decide +kernel, by decide +kernel, ?_⟩
  rcases afresh with ⟨ready, _, _, same⟩ | ⟨fault, _, refused, _⟩
  · exact same
  · rw [Transaction.prepare_ofFirst] at refused
    exact absurd refused nofun

end Machine

end EvmHarness
