set_option autoImplicit false

/-!
# Saturating counters

Gas, nonces, block numbers and memory sizes are counters of 64 bits.  Where one of them could pass
the largest counter it stops there instead of wrapping.  Counters are kept as natural numbers, so
the bound shows only in the operations that apply it.
-/

namespace EvmHarness.Saturating

/-- The largest counter: 64 ones. -/
def limit : Nat := 0xffffffffffffffff

/-- The sum of two counters, at most the largest one. -/
def add (a b : Nat) : Nat := min (a + b) limit

/-- The product of two counters, at most the largest one. -/
def mul (a b : Nat) : Nat := min (a * b) limit

theorem add_eq {a b : Nat} (h : a + b ≤ limit) : add a b = a + b := Nat.min_eq_left h

theorem mul_eq {a b : Nat} (h : a * b ≤ limit) : mul a b = a * b := Nat.min_eq_left h

theorem add_le (a b : Nat) : add a b ≤ a + b := Nat.min_le_left _ _

end EvmHarness.Saturating
