import EvmHarness.Proofs.MachineRun
set_option autoImplicit false

/-!
# Touched addresses stay touched

Every change to the world keeps the addresses that have been touched, and so does what comes back
after a failure: only the account records and the logs are those of before.  So within a
transaction an address is touched once and for all.
-/

namespace EvmHarness

namespace World

variable {w w' : World} {self a : Address} {isStatic : Bool} {sites : Address → Prop}

theorem Alters.accessed (h : w.Alters self isStatic sites w') (ha : a ∈ w.accessed) :
    a ∈ w'.accessed := by
  cases h with
  | touch b => exact Std.ExtTreeSet.mem_insert.2 (.inr ha)
  | _ => exact ha

theorem Reaches.accessed (h : w.Reaches self isStatic sites w') (ha : a ∈ w.accessed) :
    a ∈ w'.accessed := by
  induction h with
  | refl => exact ha
  | tail _ alters ih => exact alters.accessed ih

end World

/-- Touching an address again changes nothing. -/
theorem World.touch_of_mem {w : World} {a : Address} (ha : a ∈ w.accessed) : w.touch a = w := by
  have same : w.accessed.insert a = w.accessed := by
    apply Std.ExtTreeSet.ext_mem
    intro b
    rw [Std.ExtTreeSet.mem_insert, Std.compare_eq_iff_eq]
    constructor
    · rintro (rfl | hb)
      · exact ha
      · exact hb
    · exact .inr
  rw [World.touch, same]

/-- Taking up an outcome changes records and logs only. -/
theorem Suspended.settled_accessed (s : Suspended) (gasLeft : Nat) (outcome : Outcome) (w : World) :
    (s.settled gasLeft outcome w).accessed = w.accessed := by
  obtain ⟨_, heq⟩ | ⟨_, _, _, _, heq⟩ | heq := s.settled_cases gasLeft outcome w
  · rw [heq]
  · rw [heq]
    rfl
  · rw [heq]
    rfl

namespace Machine

variable {m : Machine} {a : Address}

/-- An instruction that gives a value touches more addresses. -/
theorem accessed_of_instruction {next : Next} {b : Active}
    (h : Action.instruction m.environment m.active = .ok next b) (ha : a ∈ m.world.accessed) :
    a ∈ b.world.accessed := by
  obtain later | ⟨_, _, _, c, opens, rfl⟩ := Action.instruction_later_or_destroys h
  · exact later.world.accessed ha
  · exact opens.world.accessed ha

/-- So does one that ends its frame. -/
theorem Ends.accessed {outcome : Outcome} {b : Active} (h : m.Ends outcome b)
    (ha : a ∈ m.world.accessed) : a ∈ b.world.accessed := by
  cases h with
  | halt h => exact accessed_of_instruction h ha
  | fault h => exact (Action.instruction_eq_error h).2.accessed ha

theorem accessed_step (room : m.Room) (ha : a ∈ m.world.accessed) : a ∈ m.step.world.accessed := by
  cases hr : m.result with
  | some outcome =>
      rw [step_eq_self hr]
      exact ha
  | none =>
      have moves := moves_step hr room
      generalize m.step = n at moves ⊢
      cases moves with
      | proceed h => exact accessed_of_instruction h ha
      | enter h =>
          have kept := accessed_of_instruction h ha
          exact kept
      | finish ends alone => exact ends.accessed ha
      | resume ends callers runs =>
          rename_i outcome b s rest f
          show a ∈ (s.settled b.frame.gas outcome b.world).accessed
          rw [s.settled_accessed]
          exact ends.accessed ha

/-- An address that a run has touched stays touched, whatever fails later. -/
theorem Reachable.accessed_iterate (h : m.Reachable) (ha : a ∈ m.world.accessed) (n : Nat) :
    a ∈ (step^[n] m).world.accessed := by
  induction n with
  | zero => exact ha
  | succ n ih =>
      rw [Function.iterate_succ_apply']
      exact accessed_step (h.iterate n).room ih

/-- The destination of a transaction is touched before the run begins. -/
theorem destination_accessed {tx : Transaction} {gasLimit : UInt64} {before : Machine}
    (h : tx.prepare gasLimit before = .ok m) (n : Nat) :
    tx.destination ∈ (step^[n] m).world.accessed := by
  have start : tx.destination ∈ m.world.accessed := by
    obtain ⟨_, rfl⟩ := Transaction.prepare_eq_ok.1 h
    exact Std.ExtTreeSet.mem_insert_self
  exact (Reachable.prepared h).accessed_iterate start n

end Machine

end EvmHarness
