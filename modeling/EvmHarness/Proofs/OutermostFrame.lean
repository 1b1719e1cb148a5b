import EvmHarness.Proofs.Conclusion
import EvmHarness.Proofs.RunInvariant
set_option autoImplicit false

/-!
# The outermost frame

While no frame is suspended, the one that runs is that of the transaction, and so is the one that
has ended last: it acts for the destination and may change everything.  Callees may act for other
accounts, and may be static, but they stand above a caller.  The result of a run is the outcome of
the outermost frame, and comes from an instruction of this frame.
-/

namespace EvmHarness

/-- The frame acts for the account and may change everything. -/
structure Frame.ActsFreely (a : Address) (f : Frame) : Prop where
  account : f.account = a
  changeable : f.isStatic = false

theorem Frame.ActsFreely.later {a : Address} {f g : Frame} (h : f.ActsFreely a)
    (later : f.Later g) : g.ActsFreely a :=
  ⟨later.account.trans h.account, later.isStatic.trans h.changeable⟩

namespace Machine

/-- A frame without callers acts freely for the account. -/
def outermost (a : Address) : FrameInvariant where
  running callers b := callers = [] → b.frame.ActsFreely a
  ended callers b := callers = [] → b.frame.ActsFreely a
  waiting callers s := callers = [] → s.frame.ActsFreely a

theorem carries_outermost (a : Address) (m : Machine) : m.Carries (outermost a) where
  proceed ha h alone := (ha alone).later (Action.instruction_frame h)
  enter ha h := ⟨nofun, fun alone => (ha alone).later (Action.instruction_frame h)⟩
  ends ha ends alone := (ha alone).later ends.frame
  resume {_ b s _ _} hs _ runs alone := by
    have given : (s.given b.frame.gas).ActsFreely a := ⟨(hs alone).account, (hs alone).changeable⟩
    exact given.later runs.toLater

/-- In the run of a transaction, a frame without callers acts freely for the destination. -/
theorem outermost_iterate {tx : Transaction} {gasLimit : UInt64} {before m : Machine}
    (h : tx.prepare gasLimit before = .ok m) (n : Nat) (alone : (step^[n] m).suspended = []) :
    (step^[n] m).frame.ActsFreely tx.destination := by
  have start : (outermost tx.destination).running [] m.active := by
    obtain ⟨_, rfl⟩ := Transaction.prepare_eq_ok.1 h
    exact fun _ => ⟨rfl, rfl⟩
  have holds : (step^[n] m).Holds (outermost tx.destination) [] :=
    holds_run h start n fun k _ _ => carries_outermost _ _
  exact holds.last (fun _ _ => id) alone

/-! ## The end of a run -/

/-- A result is the outcome that an instruction without callers below it has ended with. -/
theorem ends_of_result {m : Machine} (reachable : m.Reachable) (running : m.result = none) {n : Nat}
    {outcome : Outcome} (result : (step^[n] m).result = some outcome) :
    ∃ k < n, (step^[k] m).result = none ∧ (step^[k] m).suspended = [] ∧
      ∃ b, (step^[k] m).Ends outcome b := by
  induction n with
  | zero => exact absurd (running.symm.trans result) nofun
  | succ n ih =>
      rw [Function.iterate_succ_apply'] at result
      cases hr : (step^[n] m).result with
      | some earlier =>
          rw [step_eq_self hr] at result
          obtain ⟨k, hk, ended⟩ := ih result
          exact ⟨k, Nat.lt_succ_of_lt hk, ended⟩
      | none =>
          have moves := moves_step hr (reachable.iterate n).room
          generalize hs : (step^[n] m).step = s at moves result
          cases moves with
          | finish ends alone =>
              obtain rfl := Option.some.inj result
              exact ⟨n, Nat.lt_succ_self n, hr, alone, _, ends⟩
          | _ => exact absurd (hr.symm.trans result) nofun

/-- An instruction without callers below it that ends its frame gives the result. -/
theorem result_of_ends {m : Machine} {outcome : Outcome} {b : Active} (running : m.result = none)
    (alone : m.suspended = []) (ends : m.Ends outcome b) : m.step.result = some outcome := by
  rw [step_of_ends running ends, alone]
  rfl

/-- All states with a result have the same one. -/
theorem result_unique {m : Machine} {n k : Nat} {outcome other : Outcome}
    (result : (step^[n] m).result = some outcome) (result' : (step^[k] m).result = some other) :
    outcome = other := by
  have some_n : (step^[n] m).result.isSome := by rw [result]; rfl
  have some_k : (step^[k] m).result.isSome := by rw [result']; rfl
  rcases Nat.le_total n k with le | le
  · rw [iterate_of_result some_n le, result] at result'
    exact Option.some.inj result'
  · rw [iterate_of_result some_k le, result'] at result
    exact (Option.some.inj result).symm

/-- A run of a prepared transaction ends in the frame of the transaction, with its outcome as the
result. -/
theorem run_ends {tx : Transaction} {gasLimit : UInt64} {before m : Machine}
    (h : tx.prepare gasLimit before = .ok m) :
    m.run.2 = step^[m.stepBound] m ∧ m.run.2.result = some m.run.1 ∧
      m.run.2.frame.ActsFreely tx.destination := by
  have runs : m.run.2 = step^[m.stepBound] m := runFor_eq_iterate _ m
  have result := isSome_result_run h
  have alone := ((Reachable.prepared h).iterate _).alone_of_result result
  refine ⟨runs, ?_, ?_⟩
  · rw [← runs] at result
    obtain ⟨outcome, hr⟩ := Option.isSome_iff_exists.1 result
    have outcome_eq : m.run.1 = outcome := by
      show m.run.2.result.getD _ = outcome
      rw [hr, Option.getD_some]
    rw [hr, outcome_eq]
  · rw [runs]
    exact outermost_iterate h _ alone

end Machine

end EvmHarness
