set_option autoImplicit false

/-!
# Gas schedule

The amounts of gas that do not hang on the instruction alone.  The fixed price of each
instruction is part of `Operation.price`.
-/

namespace EvmHarness.Gas

/-- The gas of a transaction that names no limit of its own. -/
def defaultLimit : Nat := 0xffffffff

/-- The first touch of an account in a transaction, on top of the price of the instruction. -/
def coldAccount : Nat := 2500

/-- The first touch of the account that a self-destruction pays. -/
def coldBeneficiary : Nat := 2600

/-- The first touch of a storage slot in a transaction. -/
def coldSlot : Nat := 2100

/-- A later read of a slot, or a write that changes nothing. -/
def warmSlot : Nat := 100

/-- A write into an empty slot. -/
def fillSlot : Nat := 20000

/-- A write over a value. -/
def changeSlot : Nat := 2900

/-- A call that sends value. -/
def valueTransfer : Nat := 9000

/-- The gas that the receiver of value is given, and that may not be spent on storage. -/
def stipend : Nat := 2300

/-- Each byte of code that a creation leaves behind. -/
def codeByte : Nat := 200

/-- Each word that is copied. -/
def copiedWord : Nat := 3

/-- Each word that is hashed. -/
def hashedWord : Nat := 6

/-- Each byte of an exponent. -/
def exponentByte : Nat := 50

/-- Each byte of the data of a log. -/
def loggedByte : Nat := 8

/-- The number of words that cover `size` bytes. -/
def words (size : Nat) : Nat := (size + 31) / 32

/-- The part of an amount that may be handed to a callee: one part in 64 stays behind. -/
def forwardable (gas : Nat) : Nat := gas - gas / 64

theorem words_zero : words 0 = 0 := rfl

theorem forwardable_le (gas : Nat) : forwardable gas ≤ gas := Nat.sub_le _ _

end EvmHarness.Gas
