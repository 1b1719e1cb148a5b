import EvmHarness.Proofs.Conclusion
import EvmHarness.Proofs.CoverageMap
set_option autoImplicit false

/-!
# Coverage only watches

An observed run takes the steps of a plain one and shows the observer the state after each of them.
So recording coverage changes nothing of an execution, and what is added to the map are the points
of the states that the transaction visits: each program counter under the digest that is on record
where the running code came from, or as one of unknown code where nothing is on record.
-/

namespace EvmHarness

/-- The run visits these states, one after each of its steps, and ends with the last state. -/
inductive Machine.Visits : Machine → List Machine → Machine → Prop where
  | ended {m : Machine} (result : m.result.isSome) : Visits m [] m
  | stepped {m last : Machine} {visited : List Machine} (running : m.result = none)
      (rest : Visits m.step visited last) : Visits m (m.step :: visited) last

/-- The transaction visits these states, one after each step of its run; a refused one visits
none. -/
inductive Transaction.Visits (tx : Transaction) (gasLimit : UInt64) (before : Machine) :
    List Machine → Prop where
  | refused {fault : TxFault} (h : tx.prepare gasLimit before = .error fault) :
      Visits tx gasLimit before []
  | ran {m last : Machine} {visited : List Machine} (h : tx.prepare gasLimit before = .ok m)
      (run : m.Visits visited last) : Visits tx gasLimit before visited

namespace Machine

variable {m last : Machine} {visited : List Machine} {σ : Type}

/-! ## Two ways to run -/

theorem Visits.last_result (h : m.Visits visited last) : last.result.isSome := by
  induction h with
  | ended result => exact result
  | stepped running rest ih => exact ih

theorem Visits.runFor_eq (h : m.Visits visited last) {n : Nat} (enough : visited.length ≤ n) :
    runFor n m = last := by
  induction h generalizing n with
  | ended result => exact runFor_of_result result n
  | stepped running rest ih =>
      cases n with
      | zero => exact absurd enough (Nat.not_succ_le_zero _)
      | succ n => rw [runFor_succ_of_running running, ih (Nat.le_of_succ_le_succ enough)]

/-- The observer sees what the run visits, in order. -/
theorem Visits.observeFor_eq (h : m.Visits visited last) (observe : Machine → σ → σ) {n : Nat}
    (enough : visited.length ≤ n) (seen : σ) :
    observeFor observe n m seen =
      (last, visited.foldl (fun seen m => observe m seen) seen) := by
  induction h generalizing n seen with
  | ended result => cases n <;> simp [observeFor, result]
  | stepped running rest ih =>
      cases n with
      | zero => exact absurd enough (Nat.not_succ_le_zero _)
      | succ n =>
          rw [observeFor, running]
          exact ih (Nat.le_of_succ_le_succ enough) _

/-! ## Every run ends -/

theorem visits_of_result {n : Nat} (running : ∀ k < n, (step^[k] m).result = none)
    (result : (step^[n] m).result.isSome) :
    ∃ visited, visited.length = n ∧ m.Visits visited (step^[n] m) := by
  induction n generalizing m with
  | zero => exact ⟨[], rfl, .ended result⟩
  | succ n ih =>
      obtain ⟨visited, length, rest⟩ :=
        ih (m := m.step) (fun k hk => running (k + 1) (Nat.succ_lt_succ hk)) result
      exact ⟨m.step :: visited, by simp [length], .stepped (running 0 (Nat.succ_pos n)) rest⟩

/-- The bound on the steps of a run is no limit: it visits all states up to a result. -/
theorem exists_visits (room : m.Room) :
    ∃ visited last, m.Visits visited last ∧ visited.length ≤ m.stepBound := by
  cases hr : m.result with
  | some outcome => exact ⟨[], m, .ended (by simp [hr]), Nat.zero_le _⟩
  | none =>
      obtain ⟨n, bound, running, result⟩ := exists_result room hr
      obtain ⟨visited, rfl, visits⟩ := visits_of_result running result
      exact ⟨visited, _, visits, bound⟩

/-- An observed run is a plain run whose states the observer has seen. -/
theorem exists_observed (room : m.Room) :
    ∃ visited, m.Visits visited m.run.2 ∧ m.run.2.result = some m.run.1 ∧
      ∀ (σ : Type) (observe : Machine → σ → σ) (seen : σ),
        m.runObserved observe seen =
          (m.run.1, m.run.2, visited.foldl (fun seen m => observe m seen) seen) := by
  obtain ⟨visited, last, visits, enough⟩ := exists_visits room
  have runs : m.run = (last.outcome, last) := by
    rw [run, visits.runFor_eq enough]
  rw [runs]
  refine ⟨visited, visits, ?_, ?_⟩
  · obtain ⟨o, result⟩ := Option.isSome_iff_exists.1 visits.last_result
    simp only [outcome, result, Option.getD_some]
  · intro σ observe seen
    rw [runObserved, visits.observeFor_eq observe enough]

end Machine

/-! ## Recording points -/

namespace HarnessM

theorem exists_covered (gasLimit : UInt64) (tx : Transaction) (before : Machine) :
    ∃ visited, tx.Visits gasLimit before visited ∧ ∀ c, executeCovered gasLimit tx before c =
      (execute gasLimit tx before, c.addAll (visited.map Coverage.pointOf)) := by
  cases h : tx.prepare gasLimit before with
  | error fault =>
      refine ⟨[], .refused h, ?_⟩
      intro c
      rw [executeCovered, execute_apply, h]
      rfl
  | ok m =>
      have reachable : m.Reachable := .prepared h
      obtain ⟨visited, visits, _, observed⟩ := Machine.exists_observed reachable.room
      refine ⟨visited, .ran h visits, ?_⟩
      intro c
      rw [executeCovered, execute_apply, h, ← Coverage.foldl_record]
      simp only [Coverage.run, observed]

/-- Observing a run changes neither its result nor its end, and shows the state after every step
once, in order.  So an execution with coverage is one without, and its map is the one it starts from
joined with the points of the states that the transaction visits: it grows by those among them that
are new, and the same transaction, once more from the same machine, adds none. -/
theorem coverage_only_watches :
    (∀ m : Machine, m.Reachable →
        ∃ visited, m.Visits visited m.run.2 ∧ m.run.2.result = some m.run.1 ∧
          ∀ (σ : Type) (observe : Machine → σ → σ) (seen : σ),
            m.runObserved observe seen =
              (m.run.1, m.run.2, visited.foldl (fun seen m => observe m seen) seen)) ∧
      ∀ (gasLimit : UInt64) (tx : Transaction) (before : Machine),
        ∃ visited, tx.Visits gasLimit before visited ∧ ∀ c, ∃ covered,
          executeCovered gasLimit tx before c = (execute gasLimit tx before, covered) ∧
          c.Joins (visited.map Coverage.pointOf) covered ∧
          covered.points = c.points +
            ((visited.map Coverage.pointOf).filter fun p => !c.contains p.1 p.2).dedup.length ∧
          executeCovered gasLimit tx before covered = (execute gasLimit tx before, covered) := by
  constructor
  · intro m reachable
    exact Machine.exists_observed reachable.room
  · intro gasLimit tx before
    obtain ⟨visited, visits, covers⟩ := exists_covered gasLimit tx before
    refine ⟨visited, visits, ?_⟩
    intro c
    have joins := c.joins_addAll (visited.map Coverage.pointOf)
    refine ⟨c.addAll (visited.map Coverage.pointOf), covers c, joins, joins.points, ?_⟩
    rw [covers, Coverage.addAll_addAll]

/-- An account that lets the code of another one destroy it, and stops when it has no record any
more. -/
def disowner : Machine :=
  .ofCodes ⟨#[0x5f, 0x5f, 0x5f, 0x5f, 0x60, 2, 0x5a, 0xf4, 0x00]⟩ ⟨#[0x33, 0xff]⟩

/-- The points of the callee belong to the code that it runs, not to the account that it runs for,
and the last points of the caller to no known code. -/
theorem disowner_coverage_only_watches :
    (∃ visited, (Transaction.ofFirst.opening 100000 disowner).Visits visited
        (Transaction.ofFirst.opening 100000 disowner).run.2 ∧
      ∀ seen : List Nat,
        (Transaction.ofFirst.opening 100000 disowner).runObserved (fun m pcs => m.frame.pc :: pcs)
            seen =
          ((Transaction.ofFirst.opening 100000 disowner).run.1,
            (Transaction.ofFirst.opening 100000 disowner).run.2,
            visited.foldl (fun pcs m => m.frame.pc :: pcs) seen)) ∧
      ∃ visited covered, Transaction.ofFirst.Visits 100000 disowner visited ∧
        executeCovered 100000 Transaction.ofFirst disowner .empty =
          (execute 100000 Transaction.ofFirst disowner, covered) ∧
        (∀ h pc, covered.contains h pc = true ↔ (h, pc) ∈ visited.map Coverage.pointOf) ∧
        covered.contains (Keccak.digest ⟨#[0x33, 0xff]⟩) 1 = true ∧
        covered.contains Coverage.unknownCode 8 = true ∧ covered.points = 10 := by
  obtain ⟨watches, joins⟩ := coverage_only_watches
  obtain ⟨visited, visits, _, observed⟩ :=
    watches _ (.prepared (Transaction.prepare_ofFirst 100000 disowner))
  obtain ⟨visited', visits', covers⟩ := joins 100000 Transaction.ofFirst disowner
  obtain ⟨covered, same, joined, _⟩ := covers .empty
  have map : (executeCovered 100000 Transaction.ofFirst disowner .empty).2 = covered := by rw [same]
  refine ⟨⟨visited, visits, observed _ _⟩, visited', covered, visits', same, fun h pc => ?_, ?_⟩
  · have nothing : Coverage.empty.contains h pc = false := rfl
    rw [joined.contains, nothing]
    exact or_iff_right Bool.false_ne_true
  · rw [← map]
    decide +kernel

end HarnessM

end EvmHarness
