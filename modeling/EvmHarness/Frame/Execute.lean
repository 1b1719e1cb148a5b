import EvmHarness.Frame
import EvmHarness.Environment
import EvmHarness.Word.Arithmetic
import EvmHarness.Keccak
set_option autoImplicit false

/-!
# Operations on the frame alone

What each operation does that neither touches an account nor starts or ends a frame.  The type
says it: such an operation sees the environment and changes nothing but its own frame.
-/

namespace EvmHarness

/-- The function of one word that an operation computes. -/
def UnaryOp.eval : UnaryOp → Word → Word
  | isZero, a => Word.ofBool (a = 0)
  | not, a => ~~~a

/-- The function of two words that an operation computes; the first is the top of the stack. -/
def BinaryOp.eval : BinaryOp → Word → Word → Word
  | add, a, b => a + b
  | mul, a, b => a * b
  | sub, a, b => a - b
  | div, a, b => a / b
  | signedDiv, a, b => a.signedDiv b
  | mod, a, b => a.mod b
  | signedMod, a, b => a.signedMod b
  | signExtend, a, b => Word.signExtend a b
  | lt, a, b => Word.ofBool (a < b)
  | gt, a, b => Word.ofBool (b < a)
  | signedLt, a, b => Word.ofBool (a.slt b)
  | signedGt, a, b => Word.ofBool (b.slt a)
  | eq, a, b => Word.ofBool (a = b)
  | and, a, b => a &&& b
  | or, a, b => a ||| b
  | xor, a, b => a ^^^ b
  | byte, a, b => Word.byte a b
  | shiftLeft, a, b => Word.shiftLeft a b
  | shiftRight, a, b => Word.shiftRight a b
  | arithmeticShiftRight, a, b => Word.arithmeticShiftRight a b

/-- The function of three words that an operation computes. -/
def TernaryOp.eval : TernaryOp → Word → Word → Word → Word
  | addMod, a, b, n => Word.addMod a b n
  | mulMod, a, b, n => Word.mulMod a b n

/-- The value of a reading in a frame that has already moved past the reading instruction. -/
def Reading.value (env : Environment) (f : Frame) : Reading → Word
  | address => f.account.toWord
  | origin => env.setting.tx.origin.toWord
  | caller => f.caller.toWord
  | callValue => f.callValue
  | callDataSize => BitVec.ofNat 256 f.callData.size
  | codeSize => BitVec.ofNat 256 f.code.size
  | gasPrice => env.setting.tx.gasPrice
  | returnDataSize => BitVec.ofNat 256 f.returnData.size
  | coinbase => env.setting.block.coinbase.toWord
  | timestamp => BitVec.ofNat 256 env.setting.block.timestamp
  | number => BitVec.ofNat 256 env.setting.block.number
  | prevRandao => env.setting.block.prevRandao
  | gasLimit => BitVec.ofNat 256 env.setting.block.gasLimit
  | chainId => BitVec.ofNat 256 env.setting.block.chainId
  | baseFee => env.setting.block.baseFee
  | blobBaseFee => 1
  | programCounter => BitVec.ofNat 256 (f.pc - 1)
  | memorySize => BitVec.ofNat 256 f.memory.size
  | gas => BitVec.ofNat 256 f.gas

/-- The hash of a block among the 256 before the present one, zero for any other.  The machine
keeps no chain, so the hash is the digest of the block's number. -/
def Block.hashOf (b : Block) (requested : Word) : Word :=
  if requested.toNat < b.number ∧ b.number - requested.toNat ≤ 256 then
    Keccak.digest (Bytes.ofWord requested.toNat)
  else 0

namespace FrameM

/-- The bytes that a copy reads. -/
def sourceBytes (f : Frame) : CopySource → ByteArray
  | .callData => f.callData
  | .code => f.code
  | .returnData => f.returnData

/-- Copies into memory.  Only return data may not be read past its end. -/
def copyFrom (s : CopySource) : FrameM Unit := do
  let dest ← pop
  let offset ← pop
  let size ← pop
  let bytes := sourceBytes (← get) s
  if s = .returnData ∧ bytes.size < offset.toNat + size.toNat then throw .returnDataOverrun
  copyIn bytes dest offset size

/-- Copies within memory, after both ranges are paid for. -/
def copyWithin : FrameM Unit := do
  let dest ← pop
  let offset ← pop
  let size ← pop
  let (offset, size) ← region offset size
  let (dest, _) ← region dest (BitVec.ofNat 256 size)
  charge (Gas.copiedWord * Gas.words size)
  modify (·.mapMemory (·.copyWithin offset dest size))

/-- Performs an operation on the frame.  The program counter is already past the byte of the
operation, and its fixed price is paid. -/
def perform (env : Environment) : FrameOp → FrameM Unit
  | .unary f => do
    let a ← pop
    push (f.eval a)
  | .binary f => do
    let a ← pop
    let b ← pop
    push (f.eval a b)
  | .ternary f => do
    let a ← pop
    let b ← pop
    let c ← pop
    push (f.eval a b c)
  | .exp => do
    let base ← pop
    let exponent ← pop
    charge (Gas.exponentByte * exponent.byteLength)
    push (Word.pow base exponent)
  | .keccak => do
    let offset ← pop
    let size ← pop
    let (offset, size) ← region offset size
    charge (Gas.hashedWord * Gas.words size)
    push (Keccak.digest ((← get).memory.read offset size))
  | .read r => do push (r.value env (← get))
  | .callDataLoad => do
    let offset ← pop
    push (BitVec.ofNat 256 (Bytes.wordAt (← get).callData offset.toNat))
  | .blockHash => do
    let requested ← pop
    push (env.setting.block.hashOf requested)
  | .blobHash => do
    let _ ← pop
    push 0
  | .copy source => copyFrom source
  | .pop => do
    let _ ← pop
  | .loadWord => do
    let offset ← pop
    let (offset, _) ← region offset 32
    push (BitVec.ofNat 256 ((← get).memory.readNumber offset))
  | .storeWord => do
    let offset ← pop
    let value ← pop
    let (offset, _) ← region offset 32
    store offset 32 (Bytes.ofWord value.toNat)
  | .storeByte => do
    let offset ← pop
    let value ← pop
    let (offset, _) ← region offset 1
    store offset 1 (Bytes.ofNumber 1 value.toNat)
  | .copyMemory => copyWithin
  | .jump => do jumpTo (← pop)
  | .jumpIf => do
    let dest ← pop
    let condition ← pop
    if condition ≠ 0 then jumpTo dest
  | .jumpDest => pure ()
  | .push size => do
    let f ← get
    set { f with pc := f.pc + size }
    push (Code.immediateAt f.code (f.pc - 1) size)
  | .dup depth => updateStack (·.dup (depth + 1))
  | .swap depth => updateStack (·.swap (depth + 1))

end FrameM

end EvmHarness
