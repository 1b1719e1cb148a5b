import EvmHarness.Word
set_option autoImplicit false

/-!
# Number literals

A word is written in base ten, or after `0x`, `0o` or `0b` in base sixteen, eight or two.
Underscores anywhere are skipped, letters may be of either case, and no digits at all is zero.

Which of two faults is told depends on the direction of reading: digits of a base that is a power
of two are read from the last to the first, so that each adds bits above the ones before, and
decimal digits from the first to the last, in groups of 19 after which the size is looked at.
-/

namespace EvmHarness.Word

/-- Why a text is not a number literal. -/
inductive LiteralFault where
  /-- a byte that is no digit of the base -/
  | notDigit (byte : UInt8)
  /-- the number needs more than 256 bits -/
  | tooLarge
  deriving DecidableEq, Repr, Inhabited

namespace LiteralFault

/-- The text of a fault; the offending byte is shown as the character of the same number. -/
def message : LiteralFault → String
  | notDigit byte => "invalid digit: " ++ String.singleton (Char.ofNat byte.toNat)
  | tooLarge => "the value is too large to fit the target type"

end LiteralFault

/-- The value of a digit or letter of either case, if it is one of the base. -/
def literalDigit? (base : Nat) (byte : UInt8) : Option Nat :=
  let n := byte.toNat
  let value? :=
    if 48 ≤ n ∧ n ≤ 57 then some (n - 48)
    else if 97 ≤ n ∧ n ≤ 122 then some (n - 87)
    else if 65 ≤ n ∧ n ≤ 90 then some (n - 55)
    else none
  value?.filter (· < base)

/-- Reads digits of `width` bits each, the least significant first: `shift` bits are read. -/
def readBits (width : Nat) : List UInt8 → Nat → Nat → Except LiteralFault Nat
  | [], _, value => .ok value
  | byte :: rest, shift, value =>
    match literalDigit? (1 <<< width) byte with
    | none => .error (.notDigit byte)
    | some d =>
      let value := value + d <<< shift
      if value < count then readBits width rest (shift + width) value
      else .error .tooLarge

/-- Reads decimal digits, the most significant first; `filled` of the present group are read. -/
def readDecimal : List UInt8 → Nat → Nat → Except LiteralFault Nat
  | [], _, value => if value < count then .ok value else .error .tooLarge
  | byte :: rest, filled, value =>
    match literalDigit? 10 byte with
    | none => .error (.notDigit byte)
    | some d =>
      let value := value * 10 + d
      if filled + 1 < 19 then readDecimal rest (filled + 1) value
      else if value < count then readDecimal rest 0 value
      else .error .tooLarge

/-- Reads a number literal. -/
def parseLiteral (text : String) : Except LiteralFault Word :=
  let significant := fun bytes : List UInt8 => bytes.filter (· ≠ 0x5f)
  let bits := fun (width : Nat) (bytes : List UInt8) =>
    readBits width (significant bytes).reverse 0 0
  let value := match text.toUTF8.data.toList with
    | 0x30 :: 0x78 :: rest => bits 4 rest
    | 0x30 :: 0x58 :: rest => bits 4 rest
    | 0x30 :: 0x6f :: rest => bits 3 rest
    | 0x30 :: 0x4f :: rest => bits 3 rest
    | 0x30 :: 0x62 :: rest => bits 1 rest
    | 0x30 :: 0x42 :: rest => bits 1 rest
    | bytes => readDecimal (significant bytes) 0 0
  value.map (BitVec.ofNat 256)

end EvmHarness.Word
