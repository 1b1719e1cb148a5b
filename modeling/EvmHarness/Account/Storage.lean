import EvmHarness.Word
import EvmHarness.Gas
import Std.Data.ExtTreeMap
import Std.Data.ExtTreeSet
set_option autoImplicit false

/-!
# Storage of an account

Two maps from words to words, in which an absent slot reads as zero and a zero is never written:
the persistent one and the transient one, which lasts for a transaction.  Beside them stand the
slots that the transaction has touched, since the first touch costs more.
-/

namespace EvmHarness

/-- The storage of an account. -/
structure Storage where
  /-- the slots that outlive a transaction -/
  persistent : Std.ExtTreeMap Word Word
  /-- the slots that end with the transaction -/
  transient : Std.ExtTreeMap Word Word
  /-- the persistent slots touched in the transaction -/
  warm : Std.ExtTreeSet Word
  deriving DecidableEq

namespace Storage

/-- The storage without slots. -/
def empty : Storage := ⟨∅, ∅, ∅⟩

instance : Inhabited Storage := ⟨empty⟩

/-- Writes a value into a map of slots, where zero is absence. -/
def put (slots : Std.ExtTreeMap Word Word) (key value : Word) : Std.ExtTreeMap Word Word :=
  if value = 0 then slots.erase key else slots.insert key value

/-- The value of a slot. -/
def value (s : Storage) (key : Word) : Word := s.persistent.getD key 0

/-- The value of a transient slot. -/
def transientValue (s : Storage) (key : Word) : Word := s.transient.getD key 0

/-- Marks a slot as touched. -/
def touch (s : Storage) (key : Word) : Storage := { s with warm := s.warm.insert key }

/-- Writes a slot, and touches it. -/
def store (s : Storage) (key value : Word) : Storage :=
  { s.touch key with persistent := put s.persistent key value }

/-- Writes a transient slot. -/
def storeTransient (s : Storage) (key value : Word) : Storage :=
  { s with transient := put s.transient key value }

/-- Reads a slot, and touches it. -/
def load (s : Storage) (key : Word) : Word × Storage := (s.value key, s.touch key)

/-- The price of reading a slot; asking for it touches the slot. -/
def readCost (s : Storage) (key : Word) : Nat × Storage :=
  (if s.warm.contains key then Gas.warmSlot else Gas.coldSlot, s.touch key)

/-- The price of writing a value into a slot; asking for it touches the slot. -/
def writeCost (s : Storage) (key value : Word) : Nat × Storage :=
  let current := s.value key
  let base :=
    if current = value then Gas.warmSlot
    else if current = 0 then Gas.fillSlot
    else Gas.changeSlot
  (base + (if s.warm.contains key then 0 else Gas.coldSlot), s.touch key)

/-- Forgets what lasts for a transaction: the transient slots and the touches. -/
def endTransaction (s : Storage) : Storage := { s with transient := ∅, warm := ∅ }

theorem readCost_pos (s : Storage) (key : Word) : 0 < (s.readCost key).1 := by
  show 0 < if s.warm.contains key then Gas.warmSlot else Gas.coldSlot
  split
  · decide
  · decide

theorem writeCost_pos (s : Storage) (key value : Word) : 0 < (s.writeCost key value).1 := by
  have base : 0 < if s.value key = value then Gas.warmSlot
      else if s.value key = 0 then Gas.fillSlot else Gas.changeSlot := by
    split
    · decide
    · split
      · decide
      · decide
  exact Nat.lt_of_lt_of_le base (Nat.le_add_right _ _)

theorem writeCost_le (s : Storage) (key value : Word) :
    (s.writeCost key value).1 ≤ Gas.fillSlot + Gas.coldSlot := by
  have base : (if s.value key = value then Gas.warmSlot
      else if s.value key = 0 then Gas.fillSlot else Gas.changeSlot) ≤ Gas.fillSlot := by
    split
    · decide
    · split
      · decide
      · decide
  refine Nat.add_le_add base ?_
  split
  · exact Nat.zero_le _
  · exact Nat.le_refl _

theorem put_zero (slots : Std.ExtTreeMap Word Word) (key : Word) :
    put slots key 0 = slots.erase key := if_pos rfl

theorem getD_put (slots : Std.ExtTreeMap Word Word) (key value k : Word) :
    (put slots key value).getD k 0 = if key = k then value else slots.getD k 0 := by
  unfold put
  split
  · next hv => rw [Std.ExtTreeMap.getD_erase]; by_cases hk : key = k <;> simp [hk, hv]
  · rw [Std.ExtTreeMap.getD_insert]; by_cases hk : key = k <;> simp [hk]

end Storage

end EvmHarness
