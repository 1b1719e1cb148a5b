import EvmHarness.Frame
import EvmHarness.Environment
import EvmHarness.World
set_option autoImplicit false

/-!
# The running frame in its world

An instruction acts on the running frame and the world, sees the environment, and ends by saying
what comes next: going on, running a callee, or ending the frame.  Suspended frames are out of
its reach, so whatever an instruction does, it does at any depth.
-/

namespace EvmHarness

/-- The running frame and the world it acts on. -/
structure Active where
  frame : Frame
  world : World
  deriving DecidableEq, Inhabited

/-- What a suspended caller waits for. -/
inductive Purpose where
  /-- the output of a call, of which up to `size` bytes go to memory from `offset` on -/
  | call (offset size : Nat)
  /-- the code of a new account -/
  | create (address : Address)
  deriving DecidableEq, Repr, Inhabited

/-- A suspended caller, and what it finds again if its callee fails. -/
structure Suspended where
  frame : Frame
  purpose : Purpose
  /-- the account records before the call -/
  reversion : Accounts
  /-- the number of logs before the call -/
  logMark : Nat
  deriving DecidableEq

/-- What comes after an instruction that did not fail. -/
inductive Next where
  /-- the next instruction of the same frame -/
  | proceed
  /-- the first instruction of a callee; should it fail, `reversion` comes back -/
  | enter (callee : Frame) (purpose : Purpose) (reversion : Accounts)
  /-- nothing more: the frame ends with some output -/
  | halt (output : ByteArray)
  deriving DecidableEq

/-- An action on the running frame and the world. -/
abbrev Action : Type → Type := ReaderT Environment (EStateM Fault Active)

namespace Action

/-- An action on the frame leaves the world as it is. -/
def onFrame {α : Type} (act : FrameM α) : Action α := fun _ state =>
  match state with
  | ⟨frame, world⟩ =>
    match act frame with
    | .ok a frame => .ok a ⟨frame, world⟩
    | .error fault frame => .error fault ⟨frame, world⟩

/-- Takes the top word off the stack. -/
def pop : Action Word := onFrame FrameM.pop

/-- Puts a word on the stack. -/
def push (w : Word) : Action Unit := onFrame (FrameM.push w)

/-- Pays for something. -/
def charge (amount : Nat) : Action Unit := onFrame (FrameM.charge amount)

/-- Makes a range of memory usable. -/
def region (offset size : Word) : Action (Nat × Nat) := onFrame (FrameM.region offset size)

/-- Changes the frame. -/
def modifyFrame (change : Frame → Frame) : Action Unit := onFrame (modify change)

/-- Changes the world. -/
def modifyWorld (change : World → World) : Action Unit :=
  modify fun s => { s with world := change s.world }

/-- Fails where the frame may change nothing. -/
def demandChangeable : Action Unit := do
  if (← get).frame.isStatic then throw .stateChangeWhileStatic

/-- Touches an address, and says whether that was the first touch in the transaction. -/
def touch (a : Address) : Action Bool := do
  let known := (← get).world.accessed.contains a
  modifyWorld (·.touch a)
  return !known

/-- Touches an address, and says what that costs on top of the instruction. -/
def accessCost (a : Address) : Action Nat := do
  return if ← touch a then Gas.coldAccount else 0

/-- The record at an address, which a strict setting demands to be there. -/
def recordAt (a : Address) : Action (Option Account) := do
  match (← get).world.accounts[a]? with
  | some record => return some record
  | none => if (← read).setting.strict then throw (.unknownAccount a) else return none

/-- Touches an address, pays for that, and looks its record up. -/
def visit (a : Address) : Action (Option Account) := do
  charge (← accessCost a)
  recordAt a

/-- Acts on the storage of the account that the frame runs for.  The record is there
afterwards. -/
def onStorage {α : Type} (act : Storage → α × Storage) : Action α := do
  let self := (← get).frame.account
  let (a, storage) := act ((← get).world.accounts.read self).storage
  modifyWorld (·.mapAccounts (·.update self fun record => { record with storage := storage }))
  return a

end Action

end EvmHarness
