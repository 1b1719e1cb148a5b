import EvmHarness.Account.Storage
import EvmHarness.Bytes
import EvmHarness.Keccak
set_option autoImplicit false

/-!
# Accounts

The record of an account and the map of all records.  An address without a record is not the
same as an empty record, but reads of it give the same values; a write creates the record.
-/

namespace EvmHarness

/-- The record of one account. -/
structure Account where
  /-- the code that calls to the account run, empty for an account held by a person -/
  code : ByteArray
  storage : Storage
  balance : Word
  nonce : Nat
  /-- the digest that names the code, wherever it lives -/
  codeHash : Hash
  deriving DecidableEq

namespace Account

/-- A new record for some code: no storage, balance or nonce. -/
def ofCode (code : ByteArray) : Account := ⟨code, .empty, 0, 0, Keccak.digest code⟩

/-- The record that an address without one stands for. -/
def empty : Account := ofCode ByteArray.empty

instance : Inhabited Account := ⟨empty⟩

/-- Whether the record holds no code. -/
def hasNoCode (a : Account) : Bool := a.code.isEmpty

/-- The record with other code and the digest of that code. -/
def withCode (a : Account) (code : ByteArray) : Account :=
  { a with code := code, codeHash := Keccak.digest code }

/-- The record with some value added to its balance, which stops at the largest word. -/
def credit (a : Account) (value : Word) : Account :=
  { a with balance := if a.balance.uaddOverflow value then BitVec.allOnes 256
                      else a.balance + value }

end Account

/-- All account records. -/
abbrev Accounts : Type := Std.ExtTreeMap Address Account

namespace Accounts

/-- The record at an address, or the empty one. -/
def read (accounts : Accounts) (a : Address) : Account := accounts.getD a .empty

/-- Changes the record at an address, starting from the empty one where there is none. -/
def update (accounts : Accounts) (a : Address) (f : Account → Account) : Accounts :=
  accounts.insert a (f (accounts.read a))

/-- The balance of an address. -/
def balance (accounts : Accounts) (a : Address) : Word := (accounts.read a).balance

/-- Moves value from one address to another, or fails where the balance does not cover it.
Moving nothing, or to oneself, creates no record. -/
def transfer? (accounts : Accounts) (sender receiver : Address) (value : Word) :
    Option Accounts :=
  if accounts.balance sender < value then none
  else if value = 0 ∨ sender = receiver then some accounts
  else
    let debited := accounts.update sender fun a => { a with balance := a.balance - value }
    some (debited.update receiver (·.credit value))

/-- Removes the record at an address and credits its balance to a beneficiary.  A balance that is
sent to the removed address itself is lost. -/
def destroy (accounts : Accounts) (a beneficiary : Address) : Accounts :=
  let balance := accounts.balance a
  let rest : Accounts := accounts.erase a
  if beneficiary ≠ a ∧ balance ≠ 0 then rest.update beneficiary (·.credit balance) else rest

/-- Forgets in every record what lasts for a transaction. -/
def endTransaction (accounts : Accounts) : Accounts :=
  accounts.map fun _ a => { a with storage := a.storage.endTransaction }

theorem getElem?_update (accounts : Accounts) (a b : Address) (f : Account → Account) :
    (accounts.update a f)[b]? = if a = b then some (f (accounts.read a)) else accounts[b]? := by
  simp [update, Std.ExtTreeMap.getElem?_insert]

/-- A transfer of nothing, or to oneself, changes no record. -/
theorem transfer?_harmless {xs : Accounts} {sender receiver : Address} {value : Word} {moved : Accounts}
    (h : xs.transfer? sender receiver value = some moved)
    (harmless : value = 0 ∨ sender = receiver) : moved = xs := by
  unfold transfer? at h
  split at h
  · exact absurd h nofun
  · exact (Option.some.inj h).symm

end Accounts

end EvmHarness
