import EvmHarness.Proofs.CodeWalk
import EvmHarness.Proofs.LogRun
set_option autoImplicit false

/-!
# Well-formed machines

What every part of a machine may count on in every other: how deep the frames are, how large stacks
and memories, and that a suspended frame still has room for what it waits for when its callee ends.
All of it is checked once, where an operation starts, a range of memory is asked for or a callee is
entered, and no later instruction takes it back.
-/

namespace EvmHarness

namespace Machine

/-- The limits and the order that a machine keeps to. -/
structure WellFormed (m : Machine) : Prop where
  depth : m.depth ≤ callDepthLimit
  stack : m.frame.stack.size ≤ Stack.limit
  /-- there is room for the answer -/
  waiting : ∀ s ∈ m.suspended, s.frame.stack.size + 1 ≤ Stack.limit
  memory : ∀ f ∈ m.frames, 32 ∣ f.memory.size ∧ f.memory.size ≤ Memory.sizeLimit
  /-- there is room for the output -/
  output : ∀ s ∈ m.suspended, ∀ offset size, s.purpose = .call offset size → size ≠ 0 →
    offset + size ≤ s.frame.memory.size
  /-- the marks of callers are in order, and none is beyond the logs -/
  marks : (m.world.logs.size :: m.suspended.map (·.logMark)).Pairwise (· ≥ ·)
  jumpDests : ∀ f ∈ m.frames, f.jumpDests = Code.jumpDests f.code

/-- A frame that runs above others keeps to its limits, and has dropped none of their logs. -/
structure RunsFormed (below : List Suspended) (a : Active) : Prop where
  depth : below.length ≤ callDepthLimit
  fits : a.frame.Fits
  jumpDests : a.frame.jumpDests = Code.jumpDests a.frame.code
  marks : ∀ t ∈ below, t.logMark ≤ a.world.logs.size

/-- A frame that is suspended above others keeps to its limits, and would drop none of their
logs. -/
structure WaitsFormed (below : List Suspended) (s : Suspended) : Prop where
  fits : s.frame.Fits
  jumpDests : s.frame.jumpDests = Code.jumpDests s.frame.code
  marks : ∀ t ∈ below, t.logMark ≤ s.logMark

variable {below : List Suspended} {a b : Active}

/-- A later state with more logs keeps to the limits, too. -/
theorem RunsFormed.later (h : RunsFormed below a) (frame : a.frame.Later b.frame)
    (logs : b.world.LogsFrom a.world.logs) : RunsFormed below b := by
  refine ⟨h.depth, frame.fits h.fits, ?_, fun t ht => Nat.le_trans (h.marks t ht) logs.size⟩
  rw [frame.jumpDests, frame.code]
  exact h.jumpDests

/-- A caller goes on with logs that reach to the marks below it. -/
theorem WaitsFormed.marks_settled {s : Suspended} {w : World} (h : WaitsFormed below s)
    (hw : ∀ t ∈ s :: below, t.logMark ≤ w.logs.size) (gasLeft : Nat) (outcome : Outcome) :
    ∀ t ∈ below, t.logMark ≤ (s.settled gasLeft outcome w).logs.size := by
  intro t ht
  have kept := hw t (List.mem_cons_of_mem _ ht)
  obtain ⟨_, heq⟩ | ⟨_, _, _, _, heq⟩ | heq := s.settled_cases gasLeft outcome w
  · rw [heq]
    exact kept
  · rw [heq]
    exact kept
  · rw [heq, World.revert_logs, Array.size_extract]
    -- logs are dropped down to the caller's own mark, which is not below the earlier ones
    have mark := h.marks t ht
    omega

/-- Every frame keeps to its limits, and the marks of callers are in order. -/
def forming : FrameInvariant where
  running := RunsFormed
  ended := RunsFormed
  waiting := WaitsFormed

theorem carries_forming (m : Machine) : m.Carries forming where
  proceed ha h := ha.later (Action.instruction_frame h) (Action.instruction_logs (.of_eq rfl) h)
  enter := by
    intro callee purpose reversion b ha h
    have enters := Action.instruction_enters h
    have hb := ha.later (Action.instruction_frame h) (Action.instruction_logs (.of_eq rfl) h)
    have fresh := enters.fresh
    refine ⟨⟨enters.shallow, ⟨?_, ?_⟩, fresh.jumpDests, ?_⟩, hb.fits, hb.jumpDests, hb.marks⟩
    · show callee.stack.size ≤ _
      rw [fresh.stack]
      exact Nat.zero_le _
    · show callee.memory.Fits
      rw [fresh.memory]
      exact Memory.fits_empty
    · intro t ht
      obtain rfl | ht := List.mem_cons.1 ht
      · exact Nat.le_refl _
      · exact hb.marks t ht
  ends ha ends := ha.later ends.frame (ends.logs (.of_eq rfl))
  resume := by
    intro outcome b s rest f hs hb runs
    refine ⟨Nat.le_of_succ_le hb.depth, runs.fits ⟨hs.fits.stack, hs.fits.memory⟩, ?_, ?_⟩
    · show f.jumpDests = Code.jumpDests f.code
      rw [runs.jumpDests, runs.code]
      exact hs.jumpDests
    · exact hs.marks_settled hb.marks _ _

theorem Reachable.holds_forming {m : Machine} (h : m.Reachable) : m.Holds forming [] := by
  apply h.holds carries_forming
  intro tx gasLimit before m h
  obtain ⟨_, rfl⟩ := Transaction.prepare_eq_ok.1 h
  exact ⟨Nat.zero_le _, ⟨Nat.zero_le _, Memory.fits_empty⟩, rfl, nofun⟩

/-- Callers each of which is in order with those below it have their marks in order. -/
theorem pairwise_marks {callers : List Suspended}
    (h : ∀ s rest, s :: rest <:+ callers → ∀ t ∈ rest, t.logMark ≤ s.logMark) :
    (callers.map (·.logMark)).Pairwise (· ≥ ·) := by
  induction callers with
  | nil => exact .nil
  | cons s rest ih =>
      have later := ih fun t below ht => h t below (ht.trans (List.suffix_cons _ _))
      apply List.Pairwise.cons _ later
      intro mark hmark
      obtain ⟨t, ht, rfl⟩ := List.mem_map.1 hmark
      exact h s rest List.suffix_rfl t ht

theorem Reachable.wellFormed {m : Machine} (h : m.Reachable) : m.WellFormed := by
  have holds := h.holds_forming
  have runs : RunsFormed m.suspended m.active := holds.last fun _ _ => id
  constructor
  case depth => exact runs.depth
  case stack => exact runs.fits.stack
  case waiting =>
    intro s hs
    exact (h.room s hs).stack
  case memory =>
    refine forall_mem_frames.2 ⟨⟨runs.fits.memory.words, runs.fits.memory.size⟩, ?_⟩
    intro s hs
    obtain ⟨_, waits⟩ := holds.of_mem hs
    exact ⟨waits.fits.memory.words, waits.fits.memory.size⟩
  case output =>
    intro s hs offset size hp hsize
    exact (Memory.covers_iff.1 ((h.room s hs).output offset size hp)).resolve_left hsize
  case marks =>
    have callers : (m.suspended.map (·.logMark)).Pairwise (· ≥ ·) :=
      pairwise_marks fun s rest hs => (holds.waiting hs (Nat.zero_le _)).marks
    apply List.Pairwise.cons _ callers
    intro mark hmark
    obtain ⟨t, ht, rfl⟩ := List.mem_map.1 hmark
    exact runs.marks t ht
  case jumpDests =>
    refine forall_mem_frames.2 ⟨runs.jumpDests, ?_⟩
    intro s hs
    obtain ⟨_, waits⟩ := holds.of_mem hs
    exact waits.jumpDests

end Machine

end EvmHarness
