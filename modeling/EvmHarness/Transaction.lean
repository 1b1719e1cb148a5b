import EvmHarness.Machine
set_option autoImplicit false

/-!
# Transactions

A call of an account, or a creation at an address that the transaction itself names.  Preparing
one charges the sender and puts the machine in front of the first instruction.
-/

namespace EvmHarness

/-- What a transaction does at its destination. -/
inductive TxAction where
  /-- run the account's code on some input -/
  | call (data : ByteArray)
  /-- run some initial code; what it returns becomes the account's code -/
  | create (initCode : ByteArray)
  deriving DecidableEq, Inhabited

/-- How far the block moves on before a transaction. -/
structure Delay where
  seconds : Nat
  blocks : Nat
  deriving DecidableEq, Repr, Inhabited

/-- A transaction. -/
structure Transaction where
  action : TxAction
  sender : Address
  /-- the account to call, or the place of the new one -/
  destination : Address
  gas : UInt64
  gasPrice : Word
  value : Word
  delay : Delay
  deriving DecidableEq, Inhabited

/-- Why a transaction has no outcome. -/
inductive TxFault where
  /-- it failed in a way that a well-formed program cannot -/
  | illegal (fault : Fault)
  /-- it failed in a way that has no class -/
  | unclassified (fault : Fault)
  /-- an account is missing that has to be there -/
  | missingAccount (address : Address)
  /-- the sender cannot pay the value -/
  | insufficientBalance (sender : Address) (balance value : Word)
  deriving DecidableEq, Inhabited

namespace TxFault

/-- The text of a fault. -/
def message : TxFault → String
  | illegal fault => "Illegal execution: " ++ fault.message
  | unclassified fault =>
    "Unreachable interpreter failure (please report this): " ++ fault.message
  | missingAccount address => "No contract at " ++ address.checksum
  | insufficientBalance sender balance value =>
    "Sender " ++ sender.checksum ++ " has balance " ++ toString balance.toNat ++
      ", which cannot cover value " ++ toString value.toNat

end TxFault

namespace Transaction

/-- A call with the default gas and nothing else. -/
def ofCall (sender destination : Address) (data : ByteArray) : Transaction :=
  { action := .call data, sender, destination, gas := UInt64.ofNat Gas.defaultLimit, gasPrice := 0,
    value := 0, delay := ⟨0, 0⟩ }

/-- A creation with the default gas and nothing else. -/
def ofCreate (sender destination : Address) (initCode : ByteArray) : Transaction :=
  { ofCall sender destination ByteArray.empty with action := .create initCode }

/-- Whether the transaction creates an account. -/
def isCreate (tx : Transaction) : Bool :=
  match tx.action with
  | .create _ => true
  | .call _ => false

/-- Takes the value from the sender and counts the transaction. -/
def charge (tx : Transaction) (accounts : Accounts) : Accounts :=
  accounts.update tx.sender fun a =>
    { a with balance := a.balance - tx.value, nonce := Saturating.add a.nonce 1 }

/-- Puts the value at the destination: on top of what is there for a call, in a new record that
replaces what is there for a creation. -/
def arrive (tx : Transaction) (accounts : Accounts) : Accounts :=
  match tx.action with
  | .call _ => accounts.update tx.destination (·.credit tx.value)
  | .create initCode =>
    accounts.insert tx.destination { Account.ofCode initCode with balance := tx.value }

/-- The input of the first frame. -/
def input (tx : Transaction) : ByteArray :=
  match tx.action with
  | .call data => data
  | .create _ => ByteArray.empty

/-- The first frame, without its code. -/
def firstFrame (tx : Transaction) (gasLimit : UInt64) : Frame :=
  { Frame.withGas (min tx.gas.toNat gasLimit.toNat) with
    caller := tx.sender
    callValue := tx.value
    callData := tx.input }

/-- The block after the delay. -/
def delayed (tx : Transaction) (b : Block) : Block :=
  { b with
    timestamp := Saturating.add b.timestamp tx.delay.seconds
    number := Saturating.add b.number tx.delay.blocks }

/-- Puts a machine in front of the first instruction of a transaction, or refuses a transaction
whose value the sender does not have. -/
def prepare (tx : Transaction) (gasLimit : UInt64) (m : Machine) : Except TxFault Machine :=
  let balance := m.accounts.balance tx.sender
  if balance < tx.value then .error (.insufficientBalance tx.sender balance tx.value)
  else
    let setting :=
      { m.setting with
        block := tx.delayed m.setting.block
        tx := { origin := tx.sender, gasPrice := tx.gasPrice } }
    let world : World :=
      { accounts := tx.arrive (tx.charge m.accounts.endTransaction)
        accessed := (∅ : Std.ExtTreeSet Address).insert tx.sender
        logs := #[] }
    let m : Machine := ⟨setting, ⟨tx.firstFrame gasLimit, world⟩, [], none⟩
    match m.load tx.destination with
    | .ok m => .ok m
    | .error _ => .error (.missingAccount tx.destination)

end Transaction

end EvmHarness
