import EvmHarness.Word
set_option autoImplicit false

/-!
# The surroundings of an execution

The block, the transaction and what else an instruction can ask about without being able to
change it.
-/

namespace EvmHarness

/-- The block that the machine executes in. -/
structure Block where
  number : Nat
  /-- in seconds -/
  timestamp : Nat
  /-- the account that the fees of the block go to -/
  coinbase : Address
  gasLimit : Nat
  baseFee : Word
  chainId : Nat
  prevRandao : Hash
  deriving DecidableEq, Repr

namespace Block

/-- The block of a new machine. -/
def initial : Block := ⟨0, 0, 0, 30000000, 0, 1, 0⟩

instance : Inhabited Block := ⟨initial⟩

end Block

/-- What every frame can see of the transaction. -/
structure TxContext where
  /-- the account that signed the transaction -/
  origin : Address
  gasPrice : Word
  deriving DecidableEq, Repr, Inhabited

/-- What an execution cannot change. -/
structure Setting where
  block : Block
  tx : TxContext
  /-- whether an account without a record is a fault instead of an empty account -/
  strict : Bool
  deriving DecidableEq, Repr, Inhabited

/-- What an instruction sees besides its frame: the setting, and how many frames are suspended
below its own. -/
structure Environment where
  setting : Setting
  depth : Nat
  deriving DecidableEq, Repr, Inhabited

end EvmHarness
