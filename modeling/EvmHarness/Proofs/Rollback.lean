import EvmHarness.Proofs.RunInvariant
set_option autoImplicit false

/-!
# What a run takes back

A nested frame that fails takes back what has happened since it was entered.  Its caller has waited
ever since, so the run has not been further out in between: a failure never reaches back behind the
last moment at which the run was further out than the frame that fails.
-/

namespace EvmHarness

namespace Machine

variable {tx : Transaction} {gasLimit : UInt64} {before m : Machine} {s : Suspended}
  {rest : List Suspended} {k j n : Nat}

/-- The next step ends a nested frame, and its caller takes the outcome for a failure. -/
structure FailsNested (m : Machine) : Prop where
  running : m.result = none
  refused : ∃ outcome b s rest, m.Ends outcome b ∧ m.suspended = s :: rest ∧
    s.Refuses b.frame.gas outcome b.world

/-- What the run does in step `k` still stands before step `n`.  A nested frame that fails in
between was entered after that, so the run has been further out than it since. -/
def Stands (m : Machine) (k n : Nat) : Prop :=
  ∀ j, k ≤ j → j < n → (step^[j] m).FailsNested →
    ∃ i, k ≤ i ∧ i ≤ j ∧ (step^[i] m).depth < (step^[j] m).depth

/-- The next step suspends the running frame on top of others, and enters a callee. -/
structure Suspends (m : Machine) (s : Suspended) (rest : List Suspended) : Prop where
  running : m.result = none
  below : m.suspended = rest
  entered : ∃ callee purpose reversion b, s = waiting purpose reversion b ∧
    Action.instruction m.environment m.active = .ok (.enter callee purpose reversion) b

/-! ## Steps that take nothing back -/

/-- A frame that goes on or enters a callee does not fail. -/
theorem not_failsNested_of_ok {next : Next} {b : Active}
    (h : Action.instruction m.environment m.active = .ok next b)
    (onward : ∀ output, next ≠ .halt output) : ¬ m.FailsNested := by
  rintro ⟨_, outcome, c, s, rest, ends, -⟩
  cases ends with
  | halt halts => exact onward _ (EStateM.Result.ok.inj (h.symm.trans halts)).1
  | fault fails => exact absurd (h.symm.trans fails) nofun

theorem not_failsNested_of_alone (alone : m.suspended = []) : ¬ m.FailsNested := by
  rintro ⟨_, outcome, c, s, rest, -, callers, -⟩
  rw [alone] at callers
  exact List.cons_ne_nil _ _ callers.symm

/-- An outcome that the caller takes is no failure. -/
theorem not_failsNested_of_taken {outcome : Outcome} {b : Active} (ends : m.Ends outcome b)
    (callers : m.suspended = s :: rest) (taken : ¬ s.Refuses b.frame.gas outcome b.world) :
    ¬ m.FailsNested := by
  rintro ⟨_, outcome', b', s', rest', ends', callers', refuses⟩
  obtain ⟨rfl, rfl⟩ := ends.unique ends'
  obtain ⟨rfl, -⟩ := List.cons.inj (callers.symm.trans callers')
  exact taken refuses

theorem Suspends.not_failsNested (h : m.Suspends s rest) : ¬ m.FailsNested := by
  obtain ⟨_, _, _, _, _, _, _, entered⟩ := h
  exact not_failsNested_of_ok entered nofun

/-! ## Since when a caller has waited -/

/-- A suspended frame has entered its callee in an earlier step, and has been suspended ever
since. -/
theorem waiting_since (h : tx.prepare gasLimit before = .ok m)
    (hs : s :: rest <:+ (step^[n] m).suspended) :
    ∃ j < n, (step^[j] m).Suspends s rest ∧
      ∀ i, j < i → i ≤ n → s :: rest <:+ (step^[i] m).suspended := by
  -- what is suspended after one more step was suspended before it, or has been just now
  induction n with
  | zero =>
      obtain ⟨_, alone⟩ := Transaction.starts_alone h
      rw [Function.iterate_zero_apply, alone] at hs
      exact absurd (List.suffix_nil.1 hs) nofun
  | succ n ih =>
      have since (old : s :: rest <:+ (step^[n] m).suspended) :
          ∃ j < n + 1, (step^[j] m).Suspends s rest ∧
            ∀ i, j < i → i ≤ n + 1 → s :: rest <:+ (step^[i] m).suspended := by
        obtain ⟨j, hj, suspends, kept⟩ := ih old
        refine ⟨j, Nat.lt_succ_of_lt hj, suspends, fun i hji hi => ?_⟩
        obtain hi | rfl := Nat.le_succ_iff.1 hi
        · exact kept i hji hi
        · exact hs
      have top := hs
      rw [Function.iterate_succ_apply'] at hs
      cases hr : (step^[n] m).result with
      | some outcome =>
          rw [step_eq_self hr] at hs
          exact since hs
      | none =>
          have moves := moves_step hr ((Reachable.prepared h).iterate n).room
          generalize (step^[n] m).step = next at moves hs
          cases moves with
          | proceed _ => exact since hs
          | finish _ _ => exact since hs
          | resume _ callers _ =>
              rw [callers] at since
              exact since (hs.trans (List.suffix_cons _ _))
          | enter entered =>
              obtain new | old := List.suffix_cons_iff.1 hs
              · obtain ⟨rfl, rfl⟩ := List.cons.inj new
                refine ⟨n, Nat.lt_succ_self n, ⟨hr, rfl, _, _, _, _, rfl, entered⟩, ?_⟩
                intro i hni hi
                obtain rfl : i = n + 1 := Nat.le_antisymm hi hni
                exact top
              · exact since old

/-! ## What stands -/

theorem Stands.refl (m : Machine) (n : Nat) : m.Stands n n := fun _ late early =>
  absurd early (Nat.not_lt_of_le late)

theorem Stands.succ (h : m.Stands k n) (fine : ¬ (step^[n] m).FailsNested) :
    m.Stands k (n + 1) := by
  intro j hkj hj fails
  obtain earlier | rfl := Nat.lt_succ_iff_lt_or_eq.1 hj
  · exact h j hkj earlier fails
  · exact absurd fails fine

/-- What stands when a callee is entered stands as long as the caller waits, and also when the
callee fails. -/
theorem Stands.since (h : m.Stands k j) (earlier : k ≤ j) (suspends : (step^[j] m).Suspends s rest)
    (waits : ∀ i, j < i → i ≤ n → s :: rest <:+ (step^[i] m).suspended) : m.Stands k (n + 1) := by
  intro i hki hi fails
  obtain before | rfl | after := Nat.lt_trichotomy i j
  · exact h i hki before fails
  · exact absurd fails suspends.not_failsNested
  · -- the frame that fails lies above the caller, and so is deeper than that was
    refine ⟨j, earlier, Nat.le_of_lt after, ?_⟩
    have above := (waits i after (Nat.le_of_lt_succ hi)).length_le
    show (step^[j] m).suspended.length < _
    rw [suspends.below]
    exact above

end Machine

end EvmHarness
