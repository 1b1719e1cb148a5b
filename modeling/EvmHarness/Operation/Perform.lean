import EvmHarness.Operation.Account
import EvmHarness.Operation.Create
import EvmHarness.Frame.Execute
set_option autoImplicit false

/-!
# Instructions

One instruction of the running frame, from the byte at the program counter to what comes next.
Before an operation starts, the stack must hold its inputs and have room for its outputs, and its
fixed price is paid.
-/

namespace EvmHarness

/-- The byte at the program counter, which moves past it. -/
def FrameM.fetch : FrameM UInt8 :=
  modifyGet fun f => (Code.opcodeAt f.code f.pc, { f with pc := f.pc + 1 })

/-- Checks the stack for an operation and takes its fixed price. -/
def FrameM.prepare (info : OperationInfo) : FrameM Unit := do
  let size := (← get).stack.size
  if size < info.inputs then throw .stackUnderrun
  if Stack.limit < size - info.inputs + info.outputs then throw .stackLimitExceeded
  charge info.price

namespace Action

/-- Performs an operation whose stack has been checked and whose price is paid. -/
def perform : Operation → Action Next
  | .stop => return .halt ByteArray.empty
  | .frame op => do
    onFrame (FrameM.perform (← read) op)
    return .proceed
  | .selfBalance => readSelfBalance
  | .account r => readAccount r
  | .copyAccountCode => copyAccountCode
  | .loadSlot => loadSlot
  | .storeSlot => storeSlot
  | .loadTransient => loadTransient
  | .storeTransient => storeTransient
  | .log topics => writeLog topics
  | .create salted => create salted
  | .call scheme => call scheme
  | .return => return .halt (← onFrame FrameM.popOutput)
  | .revert => do throw (.reverted (← onFrame FrameM.popOutput))
  | .invalid => throw (.undefined 0xfe)
  | .selfDestruct => selfDestruct

/-- Runs the instruction at the program counter. -/
def instruction : Action Next := do
  let opcode ← onFrame FrameM.fetch
  match Operation.decode? opcode with
  | none => throw (.undefined opcode)
  | some op =>
    onFrame (FrameM.prepare op.info)
    perform op

end Action

end EvmHarness
