import EvmHarness.Active
set_option autoImplicit false

/-!
# Operations on accounts and logs

Looking up accounts, reading and writing the storage of the account that the frame runs for, and
writing logs.  An address or slot is touched before its price is paid, so that it stays touched
when the price cannot be paid.
-/

namespace EvmHarness.Action

/-- The word that a look-up of an account gives; nothing is known of one without a record. -/
def readingOf (r : AccountReading) (record : Option Account) : Word :=
  match record with
  | none => 0
  | some record =>
    match r with
    | .balance => record.balance
    | .codeSize => BitVec.ofNat 256 record.code.size
    | .codeHash => record.codeHash

/-- Looks up an account that the stack names. -/
def readAccount (r : AccountReading) : Action Next := do
  let address := Address.ofWord (← pop)
  push (readingOf r (← visit address))
  return .proceed

/-- The balance of the account that the frame runs for. -/
def readSelfBalance : Action Next := do
  let s ← get
  push (s.world.accounts.balance s.frame.account)
  return .proceed

/-- Copies the code of an account into memory. -/
def copyAccountCode : Action Next := do
  let address := Address.ofWord (← pop)
  let dest ← pop
  let offset ← pop
  let size ← pop
  let code := match ← visit address with
    | some record => record.code
    | none => ByteArray.empty
  onFrame (FrameM.copyIn code dest offset size)
  return .proceed

/-- Reads a storage slot. -/
def loadSlot : Action Next := do
  let key ← pop
  let cost ← onStorage (·.readCost key)
  let value ← onStorage (·.load key)
  charge cost
  push value
  return .proceed

/-- Writes a storage slot.  Gas that came for free with value is not enough for it. -/
def storeSlot : Action Next := do
  demandChangeable
  let gas := (← get).frame.gas
  if gas ≤ Gas.stipend then throw (.outOfGas gas (Gas.stipend + 1))
  let key ← pop
  let value ← pop
  charge (← onStorage (·.writeCost key value))
  onStorage fun storage => ((), storage.store key value)
  return .proceed

/-- Reads a transient slot. -/
def loadTransient : Action Next := do
  let key ← pop
  push (← onStorage fun storage => (storage.transientValue key, storage))
  return .proceed

/-- Writes a transient slot. -/
def storeTransient : Action Next := do
  demandChangeable
  let key ← pop
  let value ← pop
  onStorage fun storage => ((), storage.storeTransient key value)
  return .proceed

/-- Writes a log of a range of memory. -/
def writeLog (topics : Nat) : Action Next := do
  demandChangeable
  let offset ← pop
  let size ← pop
  let words ← onFrame (FrameM.popMany topics)
  let (offset, size) ← region offset size
  charge (Gas.loggedByte * size)
  let f := (← get).frame
  modifyWorld (·.addLog ⟨f.account, words, f.memory.read offset size⟩)
  return .proceed

/-- Opens a self-destruction: takes the beneficiary off the stack and pays for touching it. -/
def openSelfDestruct : Action Address := do
  demandChangeable
  let beneficiary := Address.ofWord (← pop)
  charge (if ← touch beneficiary then Gas.coldBeneficiary else 0)
  return beneficiary

/-- Removes the account that the frame runs for and sends its balance to another.  A balance
that is sent to the removed account itself is lost. -/
def selfDestruct : Action Next := do
  let beneficiary ← openSelfDestruct
  let self := (← get).frame.account
  modifyWorld (·.mapAccounts (·.destroy self beneficiary))
  return .halt ByteArray.empty

end EvmHarness.Action
