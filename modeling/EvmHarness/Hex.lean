import EvmHarness.Text.Blank
set_option autoImplicit false

/-!
# Hexadecimal text of byte strings

Two digits a byte, in lower case when written.  Reading is more lenient than writing: blanks
around the text and any number of `0x` marks before the digits are dropped, digits may be of
either case, and the two digits of a byte may be a plus sign and one digit.

The digits are taken in pairs of *encoded* bytes, since the length of a text is that of its
UTF-8 encoding.  A pair that would cut a character in two is not a malformed digit: it stops the
reader, see `Fault.splitsCharacter`.
-/

namespace EvmHarness.Hex

/-- The digit for a value below sixteen. -/
def digit (n : Nat) : Char := if n < 10 then Char.ofNat (48 + n) else Char.ofNat (87 + n)

/-- The value of a hexadecimal digit of either case. -/
def digitValue? (c : Char) : Option Nat :=
  if '0' ≤ c ∧ c ≤ '9' then some (c.toNat - 48)
  else if 'a' ≤ c ∧ c ≤ 'f' then some (c.toNat - 87)
  else if 'A' ≤ c ∧ c ≤ 'F' then some (c.toNat - 55)
  else none

/-- The two digits of one byte. -/
def encodeByte (b : UInt8) : List Char := [digit (b.toNat / 16), digit (b.toNat % 16)]

/-- The digits of a list of bytes. -/
def encodeBytes (bytes : List UInt8) : List Char := bytes.flatMap encodeByte

/-- The digits of a byte string, without a mark before them. -/
def encode (b : ByteArray) : String := String.ofList (encodeBytes b.data.toList)

/-- The digits of a byte string after the mark `0x`. -/
def marked (b : ByteArray) : String := "0x" ++ encode b

/-- The `n` low hexadecimal digits of a number, most significant first. -/
def digits (value : Nat) : Nat → List Char
  | 0 => []
  | n + 1 => digits (value / 16) n ++ [digit (value % 16)]

/-- A number as exactly `n` digits after the mark `0x`. -/
def markedWidth (n value : Nat) : String := "0x" ++ String.ofList (digits value n)

/-- A number with as few digits as it needs, one at least, after the mark `0x`. -/
def markedShort (value : Nat) : String := markedWidth (value.log2 / 4 + 1) value

/-- Why a text is not read as a byte string. -/
inductive Fault where
  /-- the digits do not come in pairs -/
  | oddLength (digits : String)
  /-- a pair of characters is not a byte -/
  | notDigits (digits : String)
  /-- a pair would take only part of a character: there is no answer, not even an error -/
  | splitsCharacter
  deriving DecidableEq, Repr, Inhabited

namespace Fault

/-- The text of the two faults that are reported. -/
def message : Fault → String
  | oddLength digits => "invalid hex string: odd number of digits in '" ++ digits ++ "'"
  | notDigits digits => "invalid hex string: " ++ digits
  | splitsCharacter => "a pair of digits splits a character"

end Fault

/-- Why a pair of encoded bytes has no value. -/
inductive PairFault where
  /-- the pair holds something other than digits -/
  | notDigits
  /-- the pair ends, or begins, inside a character -/
  | splitsCharacter
  deriving DecidableEq, Repr, Inhabited

/-- The byte that two characters write: two digits, or a plus sign and a digit. -/
def pairValue? (high low : Char) : Option UInt8 :=
  match digitValue? low with
  | none => none
  | some l => if high = '+' then some (UInt8.ofNat l)
    else (digitValue? high).map fun h => UInt8.ofNat (h * 16 + l)

/-- Reads characters in pairs of encoded bytes, up to the first pair that fails.  A character
of two bytes is a pair by itself, and no digit; a longer one cannot be in one pair. -/
def decodePairs : List Char → Except PairFault (List UInt8)
  | [] => .ok []
  | [c] => .error (if c.utf8Size ≤ 2 then .notDigits else .splitsCharacter)
  | c :: d :: rest =>
    if c.utf8Size = 1 then
      if d.utf8Size = 1 then
        match pairValue? c d with
        | none => .error .notDigits
        | some b => (decodePairs rest).map (b :: ·)
      else .error .splitsCharacter
    else if c.utf8Size = 2 then .error .notDigits
    else .error .splitsCharacter

/-- The characters after any number of `0x` marks. -/
def dropMarks : List Char → List Char
  | '0' :: 'x' :: rest => dropMarks rest
  | cs => cs

/-- The characters that must be digits: no blanks around them, no marks before them. -/
def payload (text : String) : List Char := dropMarks (Text.trimBlanks text.toList)

/-- Reads a byte string from its digits. -/
def decode (text : String) : Except Fault ByteArray :=
  let digits := String.ofList (payload text)
  if digits.utf8ByteSize % 2 ≠ 0 then .error (.oddLength digits)
  else match decodePairs (payload text) with
    | .ok bytes => .ok ⟨bytes.toArray⟩
    | .error .notDigits => .error (.notDigits digits)
    | .error .splitsCharacter => .error .splitsCharacter

end EvmHarness.Hex
