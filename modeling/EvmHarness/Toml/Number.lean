import EvmHarness.Hex
import EvmHarness.Toml
set_option autoImplicit false

/-!
# Numbers in documents

An integer is written in base ten, with or without a sign and without leading zeros, or in base
sixteen, eight or two after `0x`, `0o` or `0b`.  Single underscores may stand between digits.  A
number with a fraction or an exponent is written in base ten, and has to be one that a binary
number of 64 bits can come close to.
-/

namespace EvmHarness.Toml

/-- The value of a digit of a base. -/
def digit? (base : Nat) (c : Char) : Option Nat := (Hex.digitValue? c).filter (· < base)

/-- The number that further digits make of a number. -/
def moreDigits? (base value : Nat) : List Char → Option Nat
  | [] => some value
  | '_' :: c :: rest =>
    match digit? base c with
    | some d => moreDigits? base (value * base + d) rest
    | none => none
  | c :: rest =>
    match digit? base c with
    | some d => moreDigits? base (value * base + d) rest
    | none => none

/-- The number that digits write, one at least. -/
def digits? (base : Nat) : List Char → Option Nat
  | [] => none
  | c :: rest =>
    match digit? base c with
    | some d => moreDigits? base d rest
    | none => none

/-- The number that decimal digits write without a leading zero. -/
def whole? : List Char → Option Nat
  | ['0'] => some 0
  | '0' :: _ => none
  | cs => digits? 10 cs

/-- The characters after a sign, if there is one. -/
def dropSign : List Char → List Char
  | '+' :: rest => rest
  | '-' :: rest => rest
  | cs => cs

/-- The integer that characters write. -/
def integer? (cs : List Char) : Option Int :=
  let n? : Option Int := match cs with
    | '0' :: 'x' :: rest => (digits? 16 rest).map Int.ofNat
    | '0' :: 'o' :: rest => (digits? 8 rest).map Int.ofNat
    | '0' :: 'b' :: rest => (digits? 2 rest).map Int.ofNat
    | '-' :: rest => (whole? rest).map fun n => -Int.ofNat n
    | cs => (whole? (dropSign cs)).map Int.ofNat
  n?.filter Value.holdsInteger

/-- A number in base ten: a whole number times ten to the power of an exponent. -/
structure Decimal where
  negative : Bool
  coefficient : Nat
  exponent : Int
  deriving DecidableEq, Repr, Inhabited

namespace Decimal

/-- The least magnitude without a place among the binary numbers of 64 bits.  It lies halfway
between the greatest of them and the next power of two. -/
def limit : Nat := (1 <<< 1024) - (1 <<< 970)

/-- The number that zeros after the digits of a number make. -/
def shift (n zeros : Nat) : Nat := Nat.repeat (· * 10) zeros n

/-- The number of digits before the point. -/
def places (d : Decimal) : Int := (Nat.toDigits 10 d.coefficient).length + d.exponent

/-- Whether the magnitude of a number reaches `limit`.  The digits themselves are looked at only
where there are as many before the point as `limit` has. -/
def isTooLarge (d : Decimal) : Bool :=
  let most : Int := (Nat.toDigits 10 limit).length
  d.coefficient ≠ 0 && (most < d.places || d.places == most &&
    shift limit (-d.exponent).toNat ≤ shift d.coefficient d.exponent.toNat)

end Decimal

/-- The exponent that characters write, zero where there are none. -/
def exponent? : List Char → Option Int
  | [] => some 0
  | mark :: rest =>
    if mark == 'e' || mark == 'E' then
      (digits? 10 (dropSign rest)).map fun n => if rest.head? == some '-' then -n else n
    else none

/-- The number with a fraction or an exponent that characters write. -/
def decimal? (cs : List Char) : Option Decimal := do
  let negative := cs.head? == some '-'
  let inWhole (c : Char) : Bool := (digit? 10 c).isSome || c == '_'
  let whole ← whole? ((dropSign cs).takeWhile inWhole)
  match (dropSign cs).dropWhile inWhole with
  | [] => none
  | '.' :: rest =>
    let fraction := rest.takeWhile inWhole
    let exponent ← exponent? (rest.dropWhile inWhole)
    if (digits? 10 fraction).isSome then
      let coefficient ← moreDigits? 10 whole fraction
      return ⟨negative, coefficient, exponent - (fraction.filter (· ≠ '_')).length⟩
    else none
  | rest => return ⟨negative, whole, ← exponent? rest⟩

/-- Whether characters write a number with a fraction or an exponent, or one that is none.  A
positive number must not be too large. -/
def isDecimal (cs : List Char) : Bool :=
  dropSign cs == ['i', 'n', 'f'] || dropSign cs == ['n', 'a', 'n'] ||
    (decimal? cs).any fun d => d.negative || !d.isTooLarge

end EvmHarness.Toml
