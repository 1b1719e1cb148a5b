import EvmHarness.Proofs.FreshStart
import EvmHarness.Proofs.HeldCode
import EvmHarness.Proofs.Total
set_option autoImplicit false

/-!
# What a transaction takes from its sender

Preparing a transaction writes two records, and the sender's may be both of them.  A call to oneself
gives the value back on top of what is left.  A creation writes a new record over the one at its
destination: placed at the address of its own sender, it takes the count of the transaction and all
that the sender had left with it.
-/

namespace EvmHarness

/-- A credit adds the value as far as a word reaches. -/
theorem Account.toNat_balance_credit (a : Account) (value : Word) :
    (a.credit value).balance.toNat = min (a.balance.toNat + value.toNat) (2 ^ 256 - 1) := by
  by_cases fits : a.balance.toNat + value.toNat < 2 ^ 256
  · rw [a.credit_balance value fits]
    omega
  · have past : a.balance.uaddOverflow value = true := by
      simpa [BitVec.uaddOverflow] using fits
    have most : (a.credit value).balance = BitVec.allOnes 256 := if_pos past
    rw [most, BitVec.toNat_allOnes]
    omega

namespace Accounts

theorem getElem?_endTransaction (xs : Accounts) (a : Address) :
    xs.endTransaction[a]? =
      xs[a]?.map fun r => { r with storage := r.storage.endTransaction } := by
  rw [endTransaction, Std.ExtTreeMap.getElem?_map]

theorem nonce_endTransaction (xs : Accounts) (a : Address) :
    (xs.endTransaction.read a).nonce = (xs.read a).nonce := by
  rw [read_eq, read_eq, getElem?_endTransaction]
  cases xs[a]? with
  | none => rfl
  | some r => rfl

/-- What lasts for a transaction is all that a record forgets. -/
theorem agreesAtRest_endTransaction (xs : Accounts) (a : Address) :
    Option.Rel Account.AgreesAtRest xs[a]? xs.endTransaction[a]? := by
  rw [getElem?_endTransaction]
  cases xs[a]? with
  | none => exact .none
  | some r => exact .some ⟨rfl, rfl, rfl, rfl, rfl⟩

end Accounts

namespace Transaction

variable {tx : Transaction} {xs : Accounts} {a : Address}

/-! ## The charge and the arrival -/

/-- The record of the sender stands as a charge leaves it: the transaction is counted, and the value
is gone, unless it has come back to the sender itself. -/
structure Charged (tx : Transaction) (before after : Accounts) : Prop where
  present : tx.sender ∈ after
  nonce : (after.read tx.sender).nonce =
    min ((before.read tx.sender).nonce + 1) Saturating.limit
  balance : (after.balance tx.sender).toNat =
    (before.balance tx.sender).toNat - tx.value.toNat +
      if tx.destination = tx.sender then tx.value.toNat else 0

/-- The value stands in the record at the destination: on top of what was there for a call, as far
as a word reaches, and alone for a creation. -/
structure Arrived (tx : Transaction) (before after : Accounts) : Prop where
  present : tx.destination ∈ after
  balance : (after.balance tx.destination).toNat =
    match tx.action with
    | .call _ => min ((before.balance tx.destination).toNat + tx.value.toNat) (2 ^ 256 - 1)
    | .create _ => tx.value.toNat

theorem charge_other (h : a ≠ tx.sender) : (tx.charge xs)[a]? = xs[a]? := by
  rw [charge, Accounts.getElem?_update, if_neg (Ne.symm h)]

theorem nonce_charge (tx : Transaction) (xs : Accounts) :
    ((tx.charge xs).read tx.sender).nonce =
      min ((xs.read tx.sender).nonce + 1) Saturating.limit := by
  rw [charge, Accounts.read_update, if_pos rfl]
  rfl

theorem balance_charge (covered : tx.value ≤ xs.balance tx.sender) :
    ((tx.charge xs).balance tx.sender).toNat =
      (xs.balance tx.sender).toNat - tx.value.toNat := by
  have taken : (tx.charge xs).balance tx.sender = xs.balance tx.sender - tx.value := by
    rw [Accounts.balance, charge, Accounts.read_update, if_pos rfl]
    rfl
  rw [taken, BitVec.toNat_sub_of_le covered]

theorem arrive_other (xs : Accounts) (h : a ≠ tx.destination) : (tx.arrive xs)[a]? = xs[a]? := by
  unfold arrive
  split
  · rw [Accounts.getElem?_update, if_neg (Ne.symm h)]
  · rw [Std.ExtTreeMap.getElem?_insert, if_neg fun same => h (Std.compare_eq_iff_eq.1 same).symm]

/-- A call adds the value to the record at its destination, and changes nothing else there. -/
theorem read_arrive_call (xs : Accounts) {data : ByteArray} (call : tx.action = .call data) :
    (tx.arrive xs).read tx.destination = (xs.read tx.destination).credit tx.value := by
  rw [arrive, call]
  exact (Accounts.read_update _ _ _ _).trans (if_pos rfl)

/-- A creation replaces the record at its destination. -/
theorem arrive_create (xs : Accounts) {code : ByteArray} (create : tx.action = .create code) :
    (tx.arrive xs)[tx.destination]? = some { Account.ofCode code with balance := tx.value } := by
  rw [arrive, create]
  exact Std.ExtTreeMap.getElem?_insert_self

/-! ## Prepared records -/

/-- The sender has been charged, unless a creation has replaced its record. -/
theorem charged_openingAccounts (covered : tx.value ≤ xs.balance tx.sender)
    (kept : tx.isCreate = true → tx.destination ≠ tx.sender) :
    tx.Charged xs (tx.openingAccounts xs) := by
  have nonce := nonce_charge tx xs.endTransaction
  rw [Accounts.nonce_endTransaction] at nonce
  have same := Accounts.balance_endTransaction xs tx.sender
  have balance := balance_charge (same.symm ▸ covered)
  rw [same] at balance
  by_cases self : tx.destination = tx.sender
  · -- only a call comes here, and it puts the value back on top of what is left
    cases action : tx.action with
    | create code =>
        have create : tx.isCreate = true := by rw [isCreate, action]
        exact absurd self (kept create)
    | call data =>
        have arrived := read_arrive_call (tx.charge xs.endTransaction) action
        rw [self] at arrived
        refine ⟨self ▸ mem_openingAccounts tx xs, ?_, ?_⟩
        · rw [openingAccounts, arrived]
          exact nonce
        · have credited := Account.toNat_balance_credit
            ((tx.charge xs.endTransaction).read tx.sender) tx.value
          have small := (xs.balance tx.sender).isLt
          have le : tx.value.toNat ≤ (xs.balance tx.sender).toNat := covered
          have balance : ((tx.charge xs.endTransaction).read tx.sender).balance.toNat = _ := balance
          rw [if_pos self, openingAccounts, Accounts.balance, arrived, credited, balance]
          omega
  · have same := arrive_other (tx.charge xs.endTransaction) (Ne.symm self)
    have read : (tx.openingAccounts xs).read tx.sender =
        (tx.charge xs.endTransaction).read tx.sender := by
      rw [openingAccounts, Accounts.read_eq, Accounts.read_eq, same]
    refine ⟨?_, by rw [read, nonce], by rw [if_neg self, Accounts.balance, read]; exact balance⟩
    rw [Std.ExtTreeMap.mem_iff_isSome_getElem?, openingAccounts, same, charge,
      Accounts.getElem?_update_self]
    rfl

/-- The value has arrived at a destination that is not the sender. -/
theorem arrived_openingAccounts (other : tx.destination ≠ tx.sender) :
    tx.Arrived xs (tx.openingAccounts xs) := by
  refine ⟨mem_openingAccounts tx xs, ?_⟩
  cases action : tx.action with
  | call data =>
      have arrived := read_arrive_call (tx.charge xs.endTransaction) action
      have untouched : (tx.charge xs.endTransaction).read tx.destination =
          xs.endTransaction.read tx.destination := by
        rw [Accounts.read_eq, Accounts.read_eq, charge_other other]
      have balance : (xs.endTransaction.read tx.destination).balance = _ :=
        Accounts.balance_endTransaction xs tx.destination
      rw [openingAccounts, Accounts.balance, arrived, Account.toNat_balance_credit, untouched,
        balance]
  | create code =>
      have created := arrive_create (tx.charge xs.endTransaction) action
      rw [openingAccounts, Accounts.balance, Accounts.read_eq_of_getElem? created]

/-- A record that is neither the sender's nor at the destination forgets what lasted for the
transaction before. -/
theorem agreesAtRest_openingAccounts (sender : a ≠ tx.sender) (destination : a ≠ tx.destination) :
    Option.Rel Account.AgreesAtRest xs[a]? (tx.openingAccounts xs)[a]? := by
  rw [openingAccounts, arrive_other _ destination, charge_other sender]
  exact xs.agreesAtRest_endTransaction a

/-- Preparing a transaction counts it for its sender and takes the value, which arrives at the
destination, be that another account or the sender again, and leaves every other record as it was at
rest.  Only where a creation is placed at the address of its own sender, nothing is left of the
charge nor of what the sender had: there the new record stands, with the value alone. -/
theorem sender_charged_unless_replaced {gasLimit : UInt64} {before m : Machine}
    (h : tx.prepare gasLimit before = .ok m) :
    ((tx.isCreate = true → tx.destination ≠ tx.sender) → tx.Charged before.accounts m.accounts) ∧
      (tx.destination ≠ tx.sender → tx.Arrived before.accounts m.accounts) ∧
      (∀ code, tx.action = .create code →
        m.accounts[tx.destination]? = some { Account.ofCode code with balance := tx.value }) ∧
      ∀ a, a ≠ tx.sender → a ≠ tx.destination →
        Option.Rel Account.AgreesAtRest before.accounts[a]? m.accounts[a]? := by
  obtain ⟨covered, rfl⟩ := prepare_eq_ok.1 h
  refine ⟨?_, ?_, ?_, ?_⟩
  · exact charged_openingAccounts covered
  · exact arrived_openingAccounts
  · intro code create
    exact arrive_create _ create
  · intro a sender destination
    exact agreesAtRest_openingAccounts sender destination

/-- A sender with a balance that has sent seven transactions. -/
def funded : Machine :=
  Machine.initial.mapWorld (·.mapAccounts
    (·.insert 3 { Account.empty with balance := 100, nonce := 7 }))

/-- A call of oneself, with some value. -/
def selfPayment : Transaction := { Transaction.ofCall 3 3 ByteArray.empty with value := 40 }

theorem selfPayment_charged :
    selfPayment.prepare 100000 funded = .ok (selfPayment.opening 100000 funded) ∧
      selfPayment.Charged funded.accounts (selfPayment.opening 100000 funded).accounts ∧
      (funded.accounts.read 3).nonce = 7 ∧ funded.accounts.balance 3 = 100 := by
  have prepared : selfPayment.prepare 100000 funded = .ok (selfPayment.opening 100000 funded) :=
    prepare_eq_ok.2 ⟨by decide +kernel, rfl⟩
  obtain ⟨charged, _⟩ := sender_charged_unless_replaced prepared
  exact ⟨prepared, charged nofun, by decide +kernel, by decide +kernel⟩

/-- A creation at the address of its own sender. -/
def selfReplacement : Transaction := { Transaction.ofCreate 3 3 ⟨#[0x00]⟩ with value := 40 }

/-- The sender is not charged, and loses all that it had left. -/
theorem selfReplacement_not_charged :
    selfReplacement.prepare 100000 funded = .ok (selfReplacement.opening 100000 funded) ∧
      ¬ selfReplacement.Charged funded.accounts
        (selfReplacement.opening 100000 funded).accounts ∧
      ((selfReplacement.opening 100000 funded).accounts.read 3).nonce = 0 ∧
      (selfReplacement.opening 100000 funded).accounts.balance 3 = 40 := by
  have prepared :
      selfReplacement.prepare 100000 funded = .ok (selfReplacement.opening 100000 funded) :=
    prepare_eq_ok.2 ⟨by decide +kernel, rfl⟩
  have nonce : ((selfReplacement.opening 100000 funded).accounts.read 3).nonce = 0 := by
    decide +kernel
  refine ⟨prepared, fun charged => ?_, nonce, by decide +kernel⟩
  have counted := charged.nonce
  rw [show selfReplacement.sender = 3 from rfl, nonce] at counted
  revert counted
  decide +kernel

end Transaction

end EvmHarness
