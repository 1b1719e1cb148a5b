import EvmHarness.Operation.Call
import EvmHarness.Address.Derived
set_option autoImplicit false

/-!
# Creations

A creation runs some initial code in the name of a new account; what that code returns becomes
the code of the account.  Until then the record carries the digest of the initial code.
-/

namespace EvmHarness

/-- The largest code that a creation may leave behind. -/
def codeSizeLimit : Nat := 24576

/-- The byte that code of an account may not start with. -/
def reservedByte : UInt8 := 0xef

/-- What a creation takes off the stack. -/
structure CreateRequest where
  value : Word
  offset : Word
  size : Word
  salt : Option Word
  deriving DecidableEq, Repr, Inhabited

namespace CreateRequest

/-- Takes a request off the stack. -/
def pop (salted : Bool) : FrameM CreateRequest := do
  let value ← FrameM.pop
  let offset ← FrameM.pop
  let size ← FrameM.pop
  let salt ← if salted then some <$> FrameM.pop else pure none
  return { value, offset, size, salt }

/-- Where the new account goes. -/
def address (request : CreateRequest) (creator : Address) (nonce : Nat) (code : ByteArray) :
    Address :=
  match request.salt with
  | some salt => creator.ofSalt salt code
  | none => creator.ofNonce nonce

end CreateRequest

namespace Account

/-- Whether an account is in use, so that nothing can be created over it. -/
def isTaken (a : Account) : Bool := a.nonce ≠ 0 || !a.hasNoCode

/-- The record of an account whose initial code is about to run. -/
def underConstruction (a : Account) (initCode : ByteArray) : Account :=
  { a with nonce := 1, codeHash := Keccak.digest initCode }

end Account

/-- Counts a creation in the nonce of the creator. -/
def Accounts.countCreation (accounts : Accounts) (creator : Address) : Accounts :=
  accounts.update creator fun a => { a with nonce := a.nonce + 1 }

/-- Whether a creator passes the checks before a creation: its frame is not too deep, the value is
there and its nonce can grow. -/
def Accounts.CanCreate (accounts : Accounts) (creator : Address) (value : Word) (depth : Nat) :
    Prop :=
  depth < callDepthLimit ∧ value ≤ accounts.balance creator ∧
    (accounts.read creator).nonce ≠ Saturating.limit

instance (accounts : Accounts) (creator : Address) (value : Word) (depth : Nat) :
    Decidable (accounts.CanCreate creator value depth) :=
  inferInstanceAs (Decidable (_ ∧ _ ∧ _))

namespace Action

/-- The frame that runs the initial code of a new account. -/
def constructionFrame (creator address : Address) (value : Word) (code : ByteArray) (gas : Nat) :
    Frame :=
  { (Frame.withGas gas).setCode code with
    account := address
    codeAccount := address
    callValue := value
    caller := creator }

/-- Sets the new record up, moves the value to it and starts the initial code. -/
def startConstruction (address : Address) (value : Word) (code : ByteArray) (gas : Nat) :
    Action Next := do
  let s ← get
  let creator := s.frame.account
  let reversion := s.world.accounts
  let begun := reversion.update address (·.underConstruction code)
  match begun.transfer? creator address value with
  | none => answer gas 0
  | some moved =>
    modifyWorld (·.mapAccounts fun _ => moved)
    return .enter (constructionFrame creator address value code gas) (.create address) reversion

/-- Counts a creation, touches the new address and hands all gas but the last part to it.  That
gas is lost where the address is taken. -/
def claimAddress (address : Address) (value : Word) (code : ByteArray) : Action Next := do
  let creator := (← get).frame.account
  modifyWorld (·.mapAccounts (·.countCreation creator))
  let _ ← touch address
  let gas := Gas.forwardable (← get).frame.gas
  charge gas
  if (← get).world.accounts[address]?.any Account.isTaken then
    push 0
    return .proceed
  else startConstruction address value code gas

/-- Opens a creation: takes the request off the stack, makes its memory usable and reads the
initial code. -/
def openCreate (salted : Bool) : Action (CreateRequest × ByteArray) := do
  demandChangeable
  let request ← onFrame (CreateRequest.pop salted)
  let (offset, size) ← region request.offset request.size
  charge (if salted then Gas.hashedWord * Gas.words size else 0)
  let code := (← get).frame.memory.read offset size
  clearReturnData
  return (request, code)

/-- Claims an address for an opened creation.  Nothing happens, and no gas is taken, where the
frames are too deep, the value is not there or the creator's nonce cannot grow. -/
def startCreate (request : CreateRequest) (code : ByteArray) : Action Next := do
  let s ← get
  let creator := s.frame.account
  if s.world.accounts.CanCreate creator request.value (← read).depth then
    let nonce := (s.world.accounts.read creator).nonce
    claimAddress (request.address creator nonce code) request.value code
  else
    push 0
    return .proceed

/-- Creates an account. -/
def create (salted : Bool) : Action Next := do
  let (request, code) ← openCreate salted
  startCreate request code

end Action

end EvmHarness
