import EvmHarness.Operation
import EvmHarness.Bytes
set_option autoImplicit false

/-!
# Operations as bytes

Each operation has one byte, and not every byte has an operation.  Only the pushing instructions
are followed by bytes of their own, between one and 32.
-/

namespace EvmHarness.Operation

/-- The functions of words and the digest, from `0x01` to `0x20`. -/
def decodeComputation? : Nat → Option FrameOp
  | 0x01 => some (.binary .add)
  | 0x02 => some (.binary .mul)
  | 0x03 => some (.binary .sub)
  | 0x04 => some (.binary .div)
  | 0x05 => some (.binary .signedDiv)
  | 0x06 => some (.binary .mod)
  | 0x07 => some (.binary .signedMod)
  | 0x08 => some (.ternary .addMod)
  | 0x09 => some (.ternary .mulMod)
  | 0x0a => some .exp
  | 0x0b => some (.binary .signExtend)
  | 0x10 => some (.binary .lt)
  | 0x11 => some (.binary .gt)
  | 0x12 => some (.binary .signedLt)
  | 0x13 => some (.binary .signedGt)
  | 0x14 => some (.binary .eq)
  | 0x15 => some (.unary .isZero)
  | 0x16 => some (.binary .and)
  | 0x17 => some (.binary .or)
  | 0x18 => some (.binary .xor)
  | 0x19 => some (.unary .not)
  | 0x1a => some (.binary .byte)
  | 0x1b => some (.binary .shiftLeft)
  | 0x1c => some (.binary .shiftRight)
  | 0x1d => some (.binary .arithmeticShiftRight)
  | 0x20 => some .keccak
  | _ => none

/-- What surrounds the frame, from `0x30` to `0x4a`. -/
def decodeSurroundings? : Nat → Option Operation
  | 0x30 => some (.frame (.read .address))
  | 0x31 => some (.account .balance)
  | 0x32 => some (.frame (.read .origin))
  | 0x33 => some (.frame (.read .caller))
  | 0x34 => some (.frame (.read .callValue))
  | 0x35 => some (.frame .callDataLoad)
  | 0x36 => some (.frame (.read .callDataSize))
  | 0x37 => some (.frame (.copy .callData))
  | 0x38 => some (.frame (.read .codeSize))
  | 0x39 => some (.frame (.copy .code))
  | 0x3a => some (.frame (.read .gasPrice))
  | 0x3b => some (.account .codeSize)
  | 0x3c => some .copyAccountCode
  | 0x3d => some (.frame (.read .returnDataSize))
  | 0x3e => some (.frame (.copy .returnData))
  | 0x3f => some (.account .codeHash)
  | 0x40 => some (.frame .blockHash)
  | 0x41 => some (.frame (.read .coinbase))
  | 0x42 => some (.frame (.read .timestamp))
  | 0x43 => some (.frame (.read .number))
  | 0x44 => some (.frame (.read .prevRandao))
  | 0x45 => some (.frame (.read .gasLimit))
  | 0x46 => some (.frame (.read .chainId))
  | 0x47 => some .selfBalance
  | 0x48 => some (.frame (.read .baseFee))
  | 0x49 => some (.frame .blobHash)
  | 0x4a => some (.frame (.read .blobBaseFee))
  | _ => none

/-- Stack, memory, storage and flow, from `0x50` to `0x5e`. -/
def decodeFlow? : Nat → Option Operation
  | 0x50 => some (.frame .pop)
  | 0x51 => some (.frame .loadWord)
  | 0x52 => some (.frame .storeWord)
  | 0x53 => some (.frame .storeByte)
  | 0x54 => some .loadSlot
  | 0x55 => some .storeSlot
  | 0x56 => some (.frame .jump)
  | 0x57 => some (.frame .jumpIf)
  | 0x58 => some (.frame (.read .programCounter))
  | 0x59 => some (.frame (.read .memorySize))
  | 0x5a => some (.frame (.read .gas))
  | 0x5b => some (.frame .jumpDest)
  | 0x5c => some .loadTransient
  | 0x5d => some .storeTransient
  | 0x5e => some (.frame .copyMemory)
  | _ => none

/-- Calls, creations and endings, from `0xf0` on. -/
def decodeSystem? : Nat → Option Operation
  | 0xf0 => some (.create false)
  | 0xf1 => some (.call .call)
  | 0xf2 => some (.call .callCode)
  | 0xf3 => some .return
  | 0xf4 => some (.call .delegate)
  | 0xf5 => some (.create true)
  | 0xfa => some (.call .static)
  | 0xfd => some .revert
  | 0xfe => some .invalid
  | 0xff => some .selfDestruct
  | _ => none

/-- The operation of a byte, if it has one. -/
def decode? (opcode : UInt8) : Option Operation :=
  let n := opcode.toNat
  if n = 0 then some .stop
  else if n < 0x30 then (decodeComputation? n).map .frame
  else if n < 0x50 then decodeSurroundings? n
  else if n < 0x5f then decodeFlow? n
  else if n < 0x80 then some (.frame (.push (n - 0x5f)))
  else if n < 0x90 then some (.frame (.dup (n - 0x80)))
  else if n < 0xa0 then some (.frame (.swap (n - 0x90)))
  else if n < 0xa5 then some (.log (n - 0xa0))
  else decodeSystem? n

/-- The number of bytes that belong to an operation and follow it in the code. -/
def immediateSize : Operation → Nat
  | .frame (.push size) => size
  | _ => 0

/-- The name of a byte, `unknown` where it has no operation. -/
def nameOf (opcode : UInt8) : String :=
  match decode? opcode with
  | some op => op.name
  | none => "unknown"

/-- The number of bytes that follow a byte in the code and belong to it. -/
def immediatesOf (opcode : UInt8) : Nat :=
  if 0x60 ≤ opcode ∧ opcode < 0x80 then opcode.toNat - 0x5f else 0

/-- The byte of the only instruction that a jump may lead to. -/
def jumpDestByte : UInt8 := 0x5b

/-- The operation itself says how many bytes follow it. -/
theorem immediatesOf_eq (n : Fin 256) :
    immediatesOf (UInt8.ofFin n) = ((decode? (UInt8.ofFin n)).map immediateSize).getD 0 := by
  revert n; decide +kernel

end EvmHarness.Operation
