import EvmHarness.Active
set_option autoImplicit false

/-!
# Calls

A call runs the code of another account in a frame of its own.  The schemes differ in whose
storage the callee acts on, what value and caller it sees, and whether it may change anything.
-/

namespace EvmHarness

/-- The deepest nesting of frames. -/
def callDepthLimit : Nat := 1024

/-- What a call takes off the stack. -/
structure CallRequest where
  gas : Word
  target : Address
  /-- the value to send, zero where the scheme names none -/
  value : Word
  inputOffset : Word
  inputSize : Word
  outputOffset : Word
  outputSize : Word
  deriving DecidableEq, Repr, Inhabited

namespace CallRequest

/-- Takes a request off the stack. -/
def pop (scheme : CallScheme) : FrameM CallRequest := do
  let gas ← FrameM.pop
  let target := Address.ofWord (← FrameM.pop)
  let value ← if scheme.carriesValue then FrameM.pop else pure 0
  let inputOffset ← FrameM.pop
  let inputSize ← FrameM.pop
  let outputOffset ← FrameM.pop
  let outputSize ← FrameM.pop
  return { gas, target, value, inputOffset, inputSize, outputOffset, outputSize }

end CallRequest

/-- A call that is paid for and whose gas is set aside, before anything moves. -/
structure OpenedCall where
  request : CallRequest
  /-- the code of the target -/
  code : ByteArray
  /-- the gas that the caller hands on -/
  forwarded : Nat
  /-- the range of memory that the callee is given -/
  input : Nat × Nat
  /-- the range of memory that the output goes to -/
  output : Nat × Nat
  deriving DecidableEq, Inhabited

/-- The gas of the callee: what the caller hands on, and the stipend where value is sent. -/
def OpenedCall.gas (opened : OpenedCall) : Nat :=
  if opened.request.value = 0 then opened.forwarded
  else Saturating.add opened.forwarded Gas.stipend

namespace CallScheme

/-- The account that the callee acts on. -/
def actsOn (scheme : CallScheme) (caller : Frame) (target : Address) : Address :=
  match scheme with
  | call | static => target
  | callCode | delegate => caller.account

/-- The caller that the callee sees. -/
def callerSeen (scheme : CallScheme) (caller : Frame) : Address :=
  match scheme with
  | call | static | callCode => caller.account
  | delegate => caller.caller

/-- The value that the callee sees. -/
def valueSeen (scheme : CallScheme) (caller : Frame) (value : Word) : Word :=
  match scheme with
  | call | static | callCode => value
  | delegate => caller.callValue

/-- The frame of the callee. -/
def callee (scheme : CallScheme) (caller : Frame) (request : CallRequest) (code input : ByteArray)
    (gas : Nat) : Frame :=
  { (Frame.withGas gas).setCode code with
    account := scheme.actsOn caller request.target
    codeAccount := request.target
    callData := input
    callValue := scheme.valueSeen caller request.value
    caller := scheme.callerSeen caller
    isStatic := caller.isStatic || scheme = .static }

end CallScheme

namespace Action

/-- Pays for touching the target and for sending value, and gives the target's code. -/
def payForCall (request : CallRequest) : Action ByteArray := do
  let access ← accessCost request.target
  charge (access + if request.value = 0 then 0 else Gas.valueTransfer)
  match ← recordAt request.target with
  | some record => return record.code
  | none => return ByteArray.empty

/-- Sets aside the gas that the callee gets: what was asked for, but never the last part. -/
def forwardGas (requested : Word) : Action Nat := do
  let forwarded := min requested.toNat (Gas.forwardable (← get).frame.gas)
  charge forwarded
  return forwarded

/-- Gives gas back to the frame. -/
def refund (amount : Nat) : Action Unit :=
  modifyFrame fun f => { f with gas := Saturating.add f.gas amount }

/-- Goes on in the caller at once: gas comes back, and a word says how it went. -/
def answer (gas : Nat) (w : Word) : Action Next := do
  refund gas
  push w
  return .proceed

/-- Forgets what the last callee returned. -/
def clearReturnData : Action Unit := modifyFrame fun f => { f with returnData := ByteArray.empty }

/-- Opens a call: takes the request off the stack, makes its memory usable, pays for it and sets
the gas of the callee aside. -/
def openCall (scheme : CallScheme) : Action OpenedCall := do
  let request ← onFrame (CallRequest.pop scheme)
  if scheme = .call ∧ (← get).frame.isStatic ∧ request.value ≠ 0 then
    throw .stateChangeWhileStatic
  let input ← region request.inputOffset request.inputSize
  let output ← region request.outputOffset request.outputSize
  let code ← payForCall request
  let forwarded ← forwardGas request.gas
  clearReturnData
  return { request, code, forwarded, input, output }

/-- Moves the value and starts the callee.  Nothing runs where the frames are too deep or the
value is not there, nor where there is no code; only in the latter case did the call succeed. -/
def startCall (scheme : CallScheme) (opened : OpenedCall) : Action Next := do
  let s ← get
  let caller := s.frame
  let request := opened.request
  let moved? := s.world.accounts.transfer? caller.account
    (scheme.actsOn caller request.target) request.value
  match if (← read).depth < callDepthLimit then moved? else none with
  | none => answer opened.forwarded 0
  | some moved =>
    modifyWorld (·.mapAccounts fun _ => moved)
    if opened.code.isEmpty then answer opened.gas 1
    else
      let data := caller.memory.read opened.input.1 opened.input.2
      return .enter (scheme.callee caller request opened.code data opened.gas)
        (.call opened.output.1 opened.output.2) s.world.accounts

/-- Calls another account. -/
def call (scheme : CallScheme) : Action Next := do
  startCall scheme (← openCall scheme)

end Action

end EvmHarness
