import EvmHarness.Proofs.MachineRun
set_option autoImplicit false

/-!
# Logs only grow

A frame can add logs and no more; only a failure drops logs again, down to those of an earlier
moment.
-/

namespace EvmHarness

namespace World

/-- The logs start with those given. -/
def LogsFrom (logs : Array Log) (w : World) : Prop := ∃ more, w.logs = logs ++ more

variable {logs : Array Log} {w w' : World} {self : Address} {isStatic : Bool}
  {sites : Address → Prop}

theorem LogsFrom.of_eq (h : w.logs = logs) : w.LogsFrom logs := ⟨#[], by rw [h, Array.append_empty]⟩

theorem LogsFrom.size (h : w.LogsFrom logs) : logs.size ≤ w.logs.size := by
  obtain ⟨more, h⟩ := h
  rw [h, Array.size_append]
  exact Nat.le_add_right _ _

theorem LogsFrom.alters (h : w.LogsFrom logs) (ha : w.Alters self isStatic sites w') :
    w'.LogsFrom logs := by
  cases ha with
  | log topics data changeable =>
      obtain ⟨more, h⟩ := h
      refine ⟨more.push ⟨self, topics, data⟩, ?_⟩
      rw [addLog_logs, h, Array.append_push]
  | _ => exact h

theorem LogsFrom.reaches (h : w.LogsFrom logs) (hr : w.Reaches self isStatic sites w') :
    w'.LogsFrom logs := by
  induction hr with
  | refl => exact h
  | tail _ ha ih => exact ih.alters ha

/-- Dropping logs down to a later mark keeps the earlier ones. -/
theorem LogsFrom.revert (h : w.LogsFrom logs) {mark : Nat} (later : logs.size ≤ mark)
    (accounts : Accounts) : (w.revert accounts mark).LogsFrom logs := by
  obtain ⟨more, h⟩ := h
  refine ⟨more.extract 0 (mark - logs.size), ?_⟩
  rw [revert_logs, h, Array.extract_append, Array.extract_eq_self_of_le later, Nat.zero_sub]

/-- Dropping logs down to the mark of some moment gives back the logs of that moment. -/
theorem LogsFrom.logs_revert (h : w.LogsFrom logs) (accounts : Accounts) :
    (w.revert accounts logs.size).logs = logs := by
  obtain ⟨more, h⟩ := h
  simp [h]

end World

namespace Action

variable {logs : Array Log} {env : Environment} {a b : Active}

theorem instruction_logs {next : Next} (ha : a.world.LogsFrom logs)
    (h : instruction env a = .ok next b) : b.world.LogsFrom logs := by
  obtain later | ⟨_, _, _, c, opens, rfl⟩ := instruction_later_or_destroys h
  · exact ha.reaches later.world
  · have hc : c.world.LogsFrom logs := ha.reaches opens.world
    exact hc

end Action

/-- The end of a frame leaves at least the logs from before its last instruction. -/
theorem Machine.Ends.logs {m : Machine} {logs : Array Log} {outcome : Outcome} {b : Active}
    (h : m.Ends outcome b) (hm : m.world.LogsFrom logs) : b.world.LogsFrom logs := by
  cases h with
  | halt h => exact Action.instruction_logs hm h
  | fault h => exact World.LogsFrom.reaches hm (Action.instruction_eq_error h).2

end EvmHarness
