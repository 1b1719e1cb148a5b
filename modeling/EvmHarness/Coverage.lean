import EvmHarness.Machine
set_option autoImplicit false

/-!
# Coverage

The places in code that executions have reached: for the digest of each code, the program
counters.  Points are only ever added, so maps of several executions can be joined.
-/

namespace EvmHarness

/-- The program counters reached, by the digest of the code. -/
structure Coverage where
  codes : Std.ExtTreeMap Hash (Std.ExtTreeSet Nat)
  deriving DecidableEq

namespace Coverage

/-- Nothing reached. -/
def empty : Coverage := ⟨∅⟩

instance : Inhabited Coverage := ⟨empty⟩

/-- The digest under which points are kept whose code has no account. -/
def unknownCode : Hash := BitVec.allOnes 256

/-- The program counters reached in a code. -/
def reached (c : Coverage) (codeHash : Hash) : Std.ExtTreeSet Nat := c.codes.getD codeHash ∅

/-- Whether a point has been reached. -/
def contains (c : Coverage) (codeHash : Hash) (pc : Nat) : Bool :=
  (c.reached codeHash).contains pc

/-- Adds a point, and says whether it is new. -/
def insert (c : Coverage) (codeHash : Hash) (pc : Nat) : Bool × Coverage :=
  (!c.contains codeHash pc, ⟨c.codes.insert codeHash ((c.reached codeHash).insert pc)⟩)

/-- The number of points. -/
def points (c : Coverage) : Nat := c.codes.foldl (fun n _ pcs => n + pcs.size) 0

/-- Adds all points of another map. -/
def merge (c other : Coverage) : Coverage :=
  ⟨other.codes.foldl
    (fun codes codeHash pcs =>
      codes.insert codeHash (pcs.foldl (fun found pc => found.insert pc)
        (codes.getD codeHash ∅)))
    c.codes⟩

/-- The digest of the code that a machine executes.  It is that of the account which the code
came from: a callee that acts on its caller's storage still runs its own code. -/
def codeHashOf (m : Machine) : Hash :=
  match m.accounts[m.frame.codeAccount]? with
  | some record => record.codeHash
  | none => unknownCode

/-- Adds the place that a machine has reached. -/
def record (m : Machine) (c : Coverage) : Coverage := (c.insert (codeHashOf m) m.frame.pc).2

/-- Runs a machine to its result and adds every place that it reaches. -/
def run (m : Machine) (c : Coverage) : Outcome × Machine × Coverage := m.runObserved record c

end Coverage

end EvmHarness
