import EvmHarness.Gas
set_option autoImplicit false

/-!
# Operations

The instruction set as a type, and for every operation its name, the words it takes from the
stack and leaves there, and its fixed price.  Operations that act on the running frame alone are
set apart from those that touch accounts, logs or other frames.

Indices count from zero: the first of the copying instructions has depth `0`, the first of the
exchanging ones too.
-/

namespace EvmHarness

/-- Functions of one word. -/
inductive UnaryOp where
  | isZero | not
  deriving DecidableEq, Repr, Inhabited

/-- Functions of two words. -/
inductive BinaryOp where
  | add | mul | sub | div | signedDiv | mod | signedMod | signExtend
  | lt | gt | signedLt | signedGt | eq
  | and | or | xor | byte | shiftLeft | shiftRight | arithmeticShiftRight
  deriving DecidableEq, Repr, Inhabited

/-- Functions of three words. -/
inductive TernaryOp where
  | addMod | mulMod
  deriving DecidableEq, Repr, Inhabited

/-- Values that a frame can read without naming a word. -/
inductive Reading where
  | address | origin | caller | callValue | callDataSize | codeSize | gasPrice | returnDataSize
  | coinbase | timestamp | number | prevRandao | gasLimit | chainId | baseFee | blobBaseFee
  | programCounter | memorySize | gas
  deriving DecidableEq, Repr, Inhabited

/-- Byte strings of the frame that can be copied into memory. -/
inductive CopySource where
  | callData | code | returnData
  deriving DecidableEq, Repr, Inhabited

/-- Operations that act on the running frame alone. -/
inductive FrameOp where
  | unary (f : UnaryOp)
  | binary (f : BinaryOp)
  | ternary (f : TernaryOp)
  | exp
  | keccak
  | read (r : Reading)
  | callDataLoad
  | blockHash
  | blobHash
  | copy (source : CopySource)
  | pop
  | loadWord
  | storeWord
  | storeByte
  | copyMemory
  | jump
  | jumpIf
  | jumpDest
  /-- a word of `size` bytes that follow in the code -/
  | push (size : Nat)
  /-- a copy of the word `depth` places below the top -/
  | dup (depth : Nat)
  /-- the top word exchanged with the one `depth + 1` places below it -/
  | swap (depth : Nat)
  deriving DecidableEq, Repr, Inhabited

/-- Facts of an account that can be looked up. -/
inductive AccountReading where
  | balance | codeSize | codeHash
  deriving DecidableEq, Repr, Inhabited

/-- The ways to call another account's code.  They differ in whose storage the callee acts on
and what value it sees. -/
inductive CallScheme where
  | call | callCode | delegate | static
  deriving DecidableEq, Repr, Inhabited

/-- The operations of the instruction set. -/
inductive Operation where
  | stop
  | frame (op : FrameOp)
  | selfBalance
  | account (r : AccountReading)
  | copyAccountCode
  | loadSlot
  | storeSlot
  | loadTransient
  | storeTransient
  | log (topics : Nat)
  | create (salted : Bool)
  | call (scheme : CallScheme)
  | return
  | revert
  | invalid
  | selfDestruct
  deriving DecidableEq, Repr, Inhabited

/-- What an operation does to the stack and what it costs. -/
structure OperationInfo where
  /-- the words taken from the stack -/
  inputs : Nat
  /-- the words left in their place -/
  outputs : Nat
  /-- the gas taken before the operation starts -/
  price : Nat
  /-- whether the frame ends with the operation -/
  terminating : Bool
  deriving DecidableEq, Repr, Inhabited

namespace UnaryOp

/-- The name of a function of one word. -/
def name : UnaryOp → String
  | isZero => "ISZERO"
  | not => "NOT"

end UnaryOp

namespace BinaryOp

/-- The name of a function of two words. -/
def name : BinaryOp → String
  | add => "ADD"
  | mul => "MUL"
  | sub => "SUB"
  | div => "DIV"
  | signedDiv => "SDIV"
  | mod => "MOD"
  | signedMod => "SMOD"
  | signExtend => "SIGNEXTEND"
  | lt => "LT"
  | gt => "GT"
  | signedLt => "SLT"
  | signedGt => "SGT"
  | eq => "EQ"
  | and => "AND"
  | or => "OR"
  | xor => "XOR"
  | byte => "BYTE"
  | shiftLeft => "SHL"
  | shiftRight => "SHR"
  | arithmeticShiftRight => "SAR"

/-- The price of a function of two words: products, quotients and what is made of them cost
more. -/
def price : BinaryOp → Nat
  | mul | div | signedDiv | mod | signedMod | signExtend => 5
  | add | sub | lt | gt | signedLt | signedGt | eq | and | or | xor | byte | shiftLeft
  | shiftRight | arithmeticShiftRight => 3

end BinaryOp

namespace TernaryOp

/-- The name of a function of three words. -/
def name : TernaryOp → String
  | addMod => "ADDMOD"
  | mulMod => "MULMOD"

end TernaryOp

namespace Reading

/-- The name of a reading. -/
def name : Reading → String
  | address => "ADDRESS"
  | origin => "ORIGIN"
  | caller => "CALLER"
  | callValue => "CALLVALUE"
  | callDataSize => "CALLDATASIZE"
  | codeSize => "CODESIZE"
  | gasPrice => "GASPRICE"
  | returnDataSize => "RETURNDATASIZE"
  | coinbase => "COINBASE"
  | timestamp => "TIMESTAMP"
  | number => "NUMBER"
  | prevRandao => "PREVRANDAO"
  | gasLimit => "GASLIMIT"
  | chainId => "CHAINID"
  | baseFee => "BASEFEE"
  | blobBaseFee => "BLOBBASEFEE"
  | programCounter => "PC"
  | memorySize => "MSIZE"
  | gas => "GAS"

end Reading

namespace CopySource

/-- The name of a copy into memory. -/
def name : CopySource → String
  | callData => "CALLDATACOPY"
  | code => "CODECOPY"
  | returnData => "RETURNDATACOPY"

end CopySource

namespace FrameOp

/-- The name of an operation on the frame. -/
def name : FrameOp → String
  | unary f => f.name
  | binary f => f.name
  | ternary f => f.name
  | exp => "EXP"
  | keccak => "SHA3"
  | read r => r.name
  | callDataLoad => "CALLDATALOAD"
  | blockHash => "BLOCKHASH"
  | blobHash => "BLOBHASH"
  | copy source => source.name
  | pop => "POP"
  | loadWord => "MLOAD"
  | storeWord => "MSTORE"
  | storeByte => "MSTORE8"
  | copyMemory => "MCOPY"
  | jump => "JUMP"
  | jumpIf => "JUMPI"
  | jumpDest => "JUMPDEST"
  | push size => "PUSH" ++ toString size
  | dup depth => "DUP" ++ toString (depth + 1)
  | swap depth => "SWAP" ++ toString (depth + 1)

/-- The table entry of an operation on the frame. -/
def info : FrameOp → OperationInfo
  | unary _ => ⟨1, 1, 3, false⟩
  | binary f => ⟨2, 1, f.price, false⟩
  | ternary _ => ⟨3, 1, 8, false⟩
  | exp => ⟨2, 1, 10, false⟩
  | keccak => ⟨2, 1, 30, false⟩
  | read _ => ⟨0, 1, 2, false⟩
  | callDataLoad => ⟨1, 1, 3, false⟩
  | blockHash => ⟨1, 1, 20, false⟩
  | blobHash => ⟨1, 1, 3, false⟩
  | copy _ => ⟨3, 0, 3, false⟩
  | pop => ⟨1, 0, 2, false⟩
  | loadWord => ⟨1, 1, 3, false⟩
  | storeWord => ⟨2, 0, 3, false⟩
  | storeByte => ⟨2, 0, 3, false⟩
  | copyMemory => ⟨3, 0, 3, false⟩
  | jump => ⟨1, 0, 8, false⟩
  | jumpIf => ⟨2, 0, 10, false⟩
  | jumpDest => ⟨0, 0, 1, false⟩
  | push _ => ⟨0, 1, 3, false⟩
  | dup depth => ⟨depth + 1, depth + 2, 3, false⟩
  | swap depth => ⟨depth + 2, depth + 2, 3, false⟩

end FrameOp

namespace AccountReading

/-- The name of an account look-up. -/
def name : AccountReading → String
  | balance => "BALANCE"
  | codeSize => "EXTCODESIZE"
  | codeHash => "EXTCODEHASH"

end AccountReading

namespace CallScheme

/-- The name of a call. -/
def name : CallScheme → String
  | call => "CALL"
  | callCode => "CALLCODE"
  | delegate => "DELEGATECALL"
  | static => "STATICCALL"

/-- Whether the caller names a value to send. -/
def carriesValue : CallScheme → Bool
  | call | callCode => true
  | delegate | static => false

end CallScheme

namespace Operation

/-- The name of an operation. -/
def name : Operation → String
  | stop => "STOP"
  | frame op => op.name
  | selfBalance => "SELFBALANCE"
  | account r => r.name
  | copyAccountCode => "EXTCODECOPY"
  | loadSlot => "SLOAD"
  | storeSlot => "SSTORE"
  | loadTransient => "TLOAD"
  | storeTransient => "TSTORE"
  | log topics => "LOG" ++ toString topics
  | create salted => if salted then "CREATE2" else "CREATE"
  | call scheme => scheme.name
  | .return => "RETURN"
  | revert => "REVERT"
  | invalid => "INVALID"
  | selfDestruct => "SELFDESTRUCT"

/-- The table entry of an operation. -/
def info : Operation → OperationInfo
  | stop => ⟨0, 0, 0, true⟩
  | frame op => op.info
  | selfBalance => ⟨0, 1, 5, false⟩
  | account _ => ⟨1, 1, 100, false⟩
  | copyAccountCode => ⟨4, 0, 100, false⟩
  | loadSlot => ⟨1, 1, 0, false⟩
  | storeSlot => ⟨2, 0, 0, false⟩
  | loadTransient => ⟨1, 1, 100, false⟩
  | storeTransient => ⟨2, 0, 100, false⟩
  | log topics => ⟨topics + 2, 0, 375 * (topics + 1), false⟩
  | create salted => ⟨if salted then 4 else 3, 1, 32000, false⟩
  | call scheme => ⟨if scheme.carriesValue then 7 else 6, 1, 100, false⟩
  | .return => ⟨2, 0, 0, true⟩
  | revert => ⟨2, 0, 0, true⟩
  | invalid => ⟨0, 0, 0, true⟩
  | selfDestruct => ⟨1, 0, 5000, true⟩

end Operation

end EvmHarness
