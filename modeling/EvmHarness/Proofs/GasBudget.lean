import EvmHarness.Proofs.MachineRun
set_option autoImplicit false

/-!
# Gas is a budget

Gas moves between frames and is spent, and never comes from nowhere: what a callee is given its
caller has paid for, the stipend included, and what comes back is what is left of that.  An
instruction that goes on in its frame or enters a callee pays at least as much as the count of
frames can grow by, so the gas of all frames together with their number bounds the run.
-/

namespace EvmHarness

namespace Machine

variable {m n : Machine} {outcome : Outcome} {b : Active}

/-! ## One step -/

/-- The gas of the suspended frames. -/
def suspendedGas (callers : List Suspended) : Nat :=
  callers.foldr (fun s gas => s.frame.gas + gas) 0

/-- What a caller goes on with is at most its own gas and what its callee has left. -/
theorem resumed_gas_le {s : Suspended} {gasLeft : Nat} {f : Frame}
    (runs : (s.given gasLeft).Runs f) : f.gas ≤ s.frame.gas + gasLeft := runs.gas

/-- A step never raises the gas of all frames together. -/
theorem Moves.totalGas_le (h : m.Moves n) : n.totalGas ≤ m.totalGas := by
  cases h with
  | proceed h => exact Nat.add_le_add_right (Action.instruction_frame h).gas _
  | enter h =>
      rename_i callee purpose reversion b
      have hgas := (Action.instruction_enters h).gas
      show callee.gas + (b.frame.gas + suspendedGas m.suspended) ≤
        m.active.frame.gas + suspendedGas m.suspended
      omega
  | resume ends callers runs =>
      rename_i outcome b s rest f
      have hends : b.frame.gas ≤ m.active.frame.gas := ends.frame.gas
      have hresumed := resumed_gas_le runs
      show f.gas + suspendedGas rest ≤ m.active.frame.gas + suspendedGas m.suspended
      rw [callers]
      show f.gas + suspendedGas rest ≤ m.active.frame.gas + (s.frame.gas + suspendedGas rest)
      omega
  | finish ends alone => exact Nat.add_le_add_right ends.frame.gas _

/-- A step that gives no result lowers the gas of all frames and their number together. -/
theorem Moves.measure_lt (h : m.Moves n) (running : n.result = none) :
    n.totalGas + n.depth < m.totalGas + m.depth := by
  cases h with
  | proceed h =>
      rename_i b
      have hspent := Action.instruction_spends h
      show b.frame.gas + suspendedGas m.suspended + m.depth <
        m.active.frame.gas + suspendedGas m.suspended + m.depth
      omega
  | enter h =>
      rename_i callee purpose reversion b
      have hgas := (Action.instruction_enters h).gas
      show callee.gas + (b.frame.gas + suspendedGas m.suspended) + (m.depth + 1) <
        m.active.frame.gas + suspendedGas m.suspended + m.depth
      omega
  | resume ends callers runs =>
      rename_i outcome b s rest f
      have hends : b.frame.gas ≤ m.active.frame.gas := ends.frame.gas
      have hresumed := resumed_gas_le runs
      show f.gas + suspendedGas rest + rest.length <
        m.active.frame.gas + suspendedGas m.suspended + m.suspended.length
      rw [callers]
      show f.gas + suspendedGas rest + rest.length <
        m.active.frame.gas + (s.frame.gas + suspendedGas rest) + (rest.length + 1)
      omega
  | finish ends alone => exact absurd running nofun

/-- A step never raises the gas of all frames together, also once there is a result. -/
theorem totalGas_step_le (room : m.Room) : m.step.totalGas ≤ m.totalGas := by
  cases hr : m.result with
  | some o => exact Nat.le_of_eq (congrArg totalGas (step_eq_self hr))
  | none => exact (moves_step hr room).totalGas_le

/-! ## The whole run -/

/-- The gas of all frames and their number together bound the steps to a result. -/
theorem exists_result (room : m.Room) (running : m.result = none) :
    ∃ n ≤ m.totalGas + m.depth + 1, (∀ k < n, (step^[k] m).result = none) ∧
      (step^[n] m).result.isSome := by
  induction hμ : m.totalGas + m.depth using Nat.strongRecOn generalizing m with
  | _ μ ih =>
      subst hμ
      cases hr : m.step.result with
      | some o =>
          refine ⟨1, Nat.succ_le_succ (Nat.zero_le _), fun k hk => ?_, ?_⟩
          · obtain rfl : k = 0 := Nat.lt_one_iff.1 hk
            exact running
          · rw [Function.iterate_one, hr]
            rfl
      | none =>
          have lower := (moves_step running room).measure_lt hr
          obtain ⟨n, hn, before, result⟩ := ih _ lower room.step hr rfl
          refine ⟨n + 1, Nat.succ_le_succ (Nat.le_trans hn lower), fun k hk => ?_, result⟩
          cases k with
          | zero => exact running
          | succ k => exact before k (Nat.lt_of_succ_lt_succ hk)

theorem totalGas_iterate_le (room : m.Room) (n : Nat) : (step^[n] m).totalGas ≤ m.totalGas := by
  induction n generalizing m with
  | zero => exact Nat.le_refl _
  | succ n ih => exact Nat.le_trans (ih room.step) (totalGas_step_le room)

/-- All gas of a run is that of its first frame at most, which is a counter. -/
theorem totalGas_le_limit {tx : Transaction} {gasLimit : UInt64} {before : Machine}
    (h : tx.prepare gasLimit before = .ok m) (n : Nat) :
    (step^[n] m).totalGas ≤ Saturating.limit := by
  refine Nat.le_trans (totalGas_iterate_le (Reachable.prepared h).room n) ?_
  obtain ⟨_, rfl⟩ := Transaction.prepare_eq_ok.1 h
  have hgas : tx.gas.toNat < 2 ^ 64 := tx.gas.toNat_lt
  exact Nat.le_trans (Nat.min_le_left _ _) (Nat.le_pred_of_lt hgas)

theorem Reachable.totalGas_le_limit (h : m.Reachable) : m.totalGas ≤ Saturating.limit := by
  induction h with
  | prepared h => exact Machine.totalGas_le_limit h 0
  | stepped h ih => exact Nat.le_trans (totalGas_step_le h.room) ih

/-! ## Gas that comes back -/

/-- No sum of gas that the next step makes, where gas is handed to a callee or comes back from one,
passes the largest counter. -/
structure AddsExactly (m : Machine) : Prop where
  /-- the stipend, on top of what a caller hands on -/
  stipend : ∀ {scheme opened b}, m.active.operation? = some (.call scheme) →
    Action.openCall scheme m.environment (m.active.started (.call scheme)) = .ok opened b →
      opened.request.value ≠ 0 →
        Saturating.add opened.forwarded Gas.stipend = opened.forwarded + Gas.stipend
  /-- what a call that could not start gives back -/
  refused : ∀ {scheme opened b}, m.active.operation? = some (.call scheme) →
    Action.openCall scheme m.environment (m.active.started (.call scheme)) = .ok opened b →
      Saturating.add b.frame.gas opened.forwarded = b.frame.gas + opened.forwarded
  /-- what a call of an account without code gives back -/
  codeless : ∀ {scheme opened b}, m.active.operation? = some (.call scheme) →
    Action.openCall scheme m.environment (m.active.started (.call scheme)) = .ok opened b →
      Saturating.add b.frame.gas opened.gas = b.frame.gas + opened.gas
  /-- what a creation without its value gives back -/
  uncreated : ∀ {salted opened b}, m.active.operation? = some (.create salted) →
    Action.openCreate salted m.environment (m.active.started (.create salted)) = .ok opened b →
      ∀ address, Saturating.add (Action.claimed address b).frame.gas
        (Gas.forwardable b.frame.gas) =
          (Action.claimed address b).frame.gas + Gas.forwardable b.frame.gas
  /-- what a callee has left, be it after a deposit -/
  resumed : ∀ {outcome b s rest left}, m.Ends outcome b → m.suspended = s :: rest →
    left ≤ b.frame.gas → Saturating.add s.frame.gas left = s.frame.gas + left

/-- Within the largest counter, no sum of gas passes it. -/
theorem addsExactly (h : m.totalGas ≤ Saturating.limit) : m.AddsExactly := by
  have running : m.active.frame.gas ≤ Saturating.limit :=
    Nat.le_trans (Nat.le_add_right _ _) h
  have started : ∀ op, (m.active.started op).frame.gas ≤ Saturating.limit := fun op =>
    Nat.le_trans (m.active.started_later op).frame.gas running
  constructor
  · intro scheme opened b _ ho value
    have opens := Action.openCall_eq_ok ho
    have hpaid := opens.paid
    have hstart := started (.call scheme)
    have hstipend : Gas.stipend ≤ Gas.valueTransfer := by decide
    rw [if_neg value] at hpaid
    exact Saturating.add_eq (by omega)
  · intro scheme opened b _ ho
    have hpaid := (Action.openCall_eq_ok ho).paid
    have hstart := started (.call scheme)
    exact Saturating.add_eq (by omega)
  · intro scheme opened b _ ho
    have hpaid := (Action.openCall_eq_ok ho).paid
    have hgas := opened.gas_le
    have hstart := started (.call scheme)
    exact Saturating.add_eq (by omega)
  · intro salted opened b _ ho address
    have hspent := (Action.openCreate_eq_ok ho).frame.gas
    have hstart := started (.create salted)
    have hclaimed := Action.claimed_gas address b
    exact Saturating.add_eq (by omega)
  · intro outcome b s rest left ends callers hleft
    have hends : b.frame.gas ≤ m.active.frame.gas := ends.frame.gas
    have htotal : m.active.frame.gas + suspendedGas m.suspended ≤ Saturating.limit := h
    rw [callers] at htotal
    have htotal : m.active.frame.gas + (s.frame.gas + suspendedGas rest) ≤ Saturating.limit :=
      htotal
    exact Saturating.add_eq (by omega)

/-- A prepared transaction runs to a result within its budget of gas.  There is one after at most
as many steps as there is gas, and one more; the gas of all frames together never grows, and with
the number of suspended frames it shrinks in every step that gives no result; no sum of gas
saturates on the way, and at most the budget is left. -/
theorem run_within_budget {tx : Transaction} {gasLimit : UInt64} {before : Machine}
    (h : tx.prepare gasLimit before = .ok m) :
    (∃ n ≤ min tx.gas.toNat gasLimit.toNat + 1, (∀ k < n, (step^[k] m).result = none) ∧
        (step^[n] m).result = some m.run.1 ∧ m.run.2 = step^[n] m) ∧
      (∀ k, (step^[k + 1] m).totalGas ≤ (step^[k] m).totalGas) ∧
      (∀ k, (step^[k + 1] m).result = none →
        (step^[k + 1] m).totalGas + (step^[k + 1] m).depth <
          (step^[k] m).totalGas + (step^[k] m).depth) ∧
      (∀ k, (step^[k] m).AddsExactly) ∧
      m.run.2.frame.gas ≤ min tx.gas.toNat gasLimit.toNat := by
  have reachable : m.Reachable := .prepared h
  obtain ⟨_, rfl⟩ := Transaction.prepare_eq_ok.1 h
  generalize hm : tx.opening gasLimit before = m at h reachable ⊢
  have running : m.result = none := by rw [← hm]; rfl
  have budget : m.totalGas = min tx.gas.toNat gasLimit.toNat := by rw [← hm]; rfl
  have shallow : m.depth = 0 := by rw [← hm]; rfl
  obtain ⟨n, hn, before, result⟩ := exists_result reachable.room running
  have runs : m.run.2 = step^[n] m :=
    (runFor_eq_iterate _ m).trans (iterate_of_result result hn)
  have never_grows := totalGas_iterate_le reachable.room
  refine ⟨⟨n, ?_, before, ?_, runs⟩, fun k => ?_, fun k hk => ?_, fun k => ?_, ?_⟩
  · rw [shallow, budget] at hn
    exact hn
  · have outcome : m.run.1 = m.run.2.outcome := rfl
    obtain ⟨o, ho⟩ := Option.isSome_iff_exists.1 result
    rw [outcome, runs, Machine.outcome, ho]
    rfl
  · rw [Function.iterate_succ_apply']
    exact totalGas_step_le (reachable.iterate k).room
  · rw [Function.iterate_succ_apply'] at hk ⊢
    have before : (step^[k] m).result = none := by
      cases hr : (step^[k] m).result with
      | none => rfl
      | some o =>
          rw [step_eq_self hr, hr] at hk
          exact absurd hk nofun
    exact (moves_step before (reachable.iterate k).room).measure_lt hk
  · exact addsExactly (totalGas_le_limit h k)
  · rw [runs, ← budget]
    exact Nat.le_trans (Nat.le_add_right _ _) (never_grows n)

/-- A machine about to run a loop without end. -/
def endlessLoop : Machine :=
  Transaction.ofFirst.opening 100 (ofCodes ⟨#[0x5b, 0x5f, 0x56]⟩ ByteArray.empty)

theorem endlessLoop_within_budget :
    (∃ n ≤ 101, (step^[n] endlessLoop).result = some endlessLoop.run.1) ∧
      endlessLoop.run.2.frame.gas ≤ 100 := by
  obtain ⟨⟨n, hn, _, result, _⟩, _, _, _, left⟩ := run_within_budget
    (Transaction.prepare_ofFirst 100 (ofCodes ⟨#[0x5b, 0x5f, 0x56]⟩ ByteArray.empty))
  have budget : min Transaction.ofFirst.gas.toNat (100 : UInt64).toNat = 100 := by decide
  rw [budget] at hn left
  exact ⟨⟨n, hn, result⟩, left⟩

end Machine

end EvmHarness
