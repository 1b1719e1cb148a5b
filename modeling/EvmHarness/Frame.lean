import EvmHarness.Stack
import EvmHarness.Memory
import EvmHarness.Code
set_option autoImplicit false

/-!
# Frames

The state of one execution of some code: what it runs, on whose behalf, and how far it is.  An
action on a frame either gives a value or a fault, and keeps the changes made so far in both
cases: gas that a failing instruction has paid stays paid.
-/

namespace EvmHarness

/-- The state of a running frame. -/
structure Frame where
  /-- the account whose storage and balance the frame acts on -/
  account : Address
  /-- the account that the code was taken from -/
  codeAccount : Address
  code : ByteArray
  /-- the offsets of `code` that a jump may lead to -/
  jumpDests : Std.ExtTreeSet Nat
  /-- the offset of the next instruction -/
  pc : Nat
  stack : Stack
  memory : Memory
  callData : ByteArray
  /-- the value that came with the call -/
  callValue : Word
  /-- the account that the call came from -/
  caller : Address
  /-- the gas that is left -/
  gas : Nat
  /-- what the last callee returned -/
  returnData : ByteArray
  /-- whether changes to accounts and logs are forbidden -/
  isStatic : Bool
  deriving DecidableEq

namespace Frame

/-- The frame with nothing but gas. -/
def withGas (gas : Nat) : Frame where
  account := 0
  codeAccount := 0
  code := ByteArray.empty
  jumpDests := ∅
  pc := 0
  stack := .empty
  memory := .empty
  callData := ByteArray.empty
  callValue := 0
  caller := 0
  gas := gas
  returnData := ByteArray.empty
  isStatic := false

instance : Inhabited Frame := ⟨withGas 0⟩

/-- The frame with other code, and the jump destinations of that code. -/
def setCode (f : Frame) (code : ByteArray) : Frame :=
  { f with code := code, jumpDests := Code.jumpDests code }

/-- The frame with its memory changed.  The memory is taken out first, so that no second
reference to it is left while it changes. -/
def mapMemory (f : Frame) (change : Memory → Memory) : Frame :=
  match f with
  | ⟨account, codeAccount, code, jumpDests, pc, stack, memory, callData, callValue, caller, gas,
      returnData, isStatic⟩ =>
    ⟨account, codeAccount, code, jumpDests, pc, stack, change memory, callData, callValue, caller,
      gas, returnData, isStatic⟩

theorem mapMemory_eq (f : Frame) (change : Memory → Memory) :
    f.mapMemory change = { f with memory := change f.memory } := rfl

end Frame

/-- An action on a frame. -/
abbrev FrameM : Type → Type := EStateM Fault Frame

namespace FrameM

/-- Pays for something, or fails and pays nothing. -/
def charge (amount : Nat) : FrameM Unit := do
  let gas := (← get).gas
  if amount ≤ gas then modify fun f => { f with gas := gas - amount }
  else throw (.outOfGas gas amount)

/-- Puts a word on the stack. -/
def push (w : Word) : FrameM Unit := do
  match (← get).stack.push w with
  | .ok stack => modify fun f => { f with stack := stack }
  | .error fault => throw fault

/-- Takes the top word off the stack. -/
def pop : FrameM Word := do
  match (← get).stack.pop with
  | .ok (w, stack) => modify fun f => { f with stack := stack }; return w
  | .error fault => throw fault

/-- Takes the upper `n` words off the stack, top first. -/
def popMany (n : Nat) : FrameM (List Word) := do
  match (← get).stack.popMany n with
  | .ok (ws, stack) => modify fun f => { f with stack := stack }; return ws
  | .error fault => throw fault

/-- Replaces the stack by what a checked operation makes of it. -/
def updateStack (change : Stack → Except Fault Stack) : FrameM Unit := do
  match change (← get).stack with
  | .ok stack => modify fun f => { f with stack := stack }
  | .error fault => throw fault

/-- Makes `size` bytes of memory from `offset` on usable: the range has to be addressable, and
growing the memory up to its end is paid for.  An empty range is the one at zero. -/
def region (offset size : Word) : FrameM (Nat × Nat) := do
  if size = 0 then return (0, 0)
  let (offset, size) := (offset.toNat, size.toNat)
  if offset + size ≤ Memory.addressLimit then
    charge ((← get).memory.expansionCost offset size)
    modify (·.mapMemory (·.extend offset size))
    return (offset, size)
  else throw .memoryOverflow

/-- Writes a value of `size` bytes into memory. -/
def store (offset size : Nat) (value : ByteArray) : FrameM Unit :=
  modify (·.mapMemory (·.store offset size value))

/-- Takes an offset and a size off the stack and reads that range of memory. -/
def popOutput : FrameM ByteArray := do
  let offset ← pop
  let size ← pop
  let (offset, size) ← region offset size
  return (← get).memory.read offset size

/-- Copies bytes of a source, continued by zeros, into memory. -/
def copyIn (source : ByteArray) (dest offset size : Word) : FrameM Unit := do
  let (dest, size) ← region dest size
  charge (Gas.copiedWord * Gas.words size)
  store dest size (Bytes.slice source offset.toNat size)

/-- Goes on at a jump destination. -/
def jumpTo (dest : Word) : FrameM Unit := do
  if (← get).jumpDests.contains dest.toNat then modify fun f => { f with pc := dest.toNat }
  else throw .badJumpDestination

end FrameM

end EvmHarness
