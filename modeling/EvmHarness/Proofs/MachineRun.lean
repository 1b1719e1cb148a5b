import EvmHarness.Proofs.Entering
import EvmHarness.Proofs.Preparation
import EvmHarness.Proofs.Resume
import Mathlib.Logic.Function.Iterate
set_option autoImplicit false

/-!
# How a machine runs

A step of a running machine does one of four things: its frame goes on, enters a callee, ends into
its caller, or ends the machine.  That a caller can always take an outcome up hangs on an
invariant of reachable machines: every suspended frame has room for the answer and the output.
-/

namespace EvmHarness

namespace Machine

/-- What the next instruction sees besides its frame and the world. -/
def environment (m : Machine) : Environment := ⟨m.setting, m.depth⟩

/-- The next instruction ends the running frame with an outcome. -/
inductive Ends (m : Machine) : Outcome → Active → Prop where
  | halt {output : ByteArray} {b : Active}
      (h : Action.instruction m.environment m.active = .ok (.halt output) b) :
      Ends m (.success output) b
  | fault {fault : Fault} {b : Active}
      (h : Action.instruction m.environment m.active = .error fault b) :
      Ends m (.failure fault) b

/-- A frame that ends is a later state of itself. -/
theorem Ends.frame {m : Machine} {outcome : Outcome} {b : Active} (h : m.Ends outcome b) :
    m.frame.Later b.frame := by
  cases h with
  | halt h => exact Action.instruction_frame h
  | fault h => exact (Action.instruction_eq_error h).1

/-- A caller that waits for a callee entered in some state. -/
def waiting (purpose : Purpose) (reversion : Accounts) (b : Active) : Suspended :=
  ⟨b.frame, purpose, reversion, b.world.logs.size⟩

/-- What a step of a running machine can do. -/
inductive Moves (m : Machine) : Machine → Prop where
  | proceed {b : Active} (h : Action.instruction m.environment m.active = .ok .proceed b) :
      Moves m { m with active := b }
  | enter {callee : Frame} {purpose : Purpose} {reversion : Accounts} {b : Active}
      (h : Action.instruction m.environment m.active = .ok (.enter callee purpose reversion) b) :
      Moves m { m with
        active := ⟨callee, b.world⟩, suspended := waiting purpose reversion b :: m.suspended }
  | resume {outcome : Outcome} {b : Active} {s : Suspended} {rest : List Suspended} {f : Frame}
      (ends : m.Ends outcome b) (callers : m.suspended = s :: rest)
      (runs : (s.given b.frame.gas).Runs f) :
      Moves m { m with
        active := ⟨f, s.settled b.frame.gas outcome b.world⟩, suspended := rest }
  | finish {outcome : Outcome} {b : Active} (ends : m.Ends outcome b)
      (alone : m.suspended = []) :
      Moves m { m with active := b, result := some outcome }

/-- Every suspended frame has room for what it waits for. -/
def Room (m : Machine) : Prop := ∀ s ∈ m.suspended, s.HasRoom

theorem unwind_of_resume_ok {setting : Setting} {s : Suspended} {rest : List Suspended}
    {b resumed : Active} {outcome : Outcome}
    (h : s.resume b.frame.gas outcome b.world = .ok () resumed) :
    unwind setting (s :: rest) b outcome = ⟨setting, resumed, rest, none⟩ := by
  rw [unwind, h]

theorem moves_of_ends {m : Machine} {outcome : Outcome} {b : Active} (running : m.result = none)
    (room : m.Room) (ends : m.Ends outcome b) :
    m.Moves (unwind m.setting m.suspended b outcome) := by
  rcases m with ⟨setting, active, suspended, result⟩
  obtain rfl : result = none := running
  cases suspended with
  | nil => exact .finish ends rfl
  | cons s rest =>
      obtain ⟨f, hf, runs⟩ := Suspended.resume_eq_ok (room s List.mem_cons_self) b.frame.gas
        outcome b.world
      dsimp only
      rw [unwind_of_resume_ok hf]
      exact .resume ends rfl runs

theorem step_eq {m : Machine} (running : m.result = none) :
    m.step = match Action.instruction m.environment m.active with
      | .ok next b => follow m.setting m.suspended b next
      | .error fault b => unwind m.setting m.suspended b (.failure fault) := by
  rcases m with ⟨setting, active, suspended, result⟩
  obtain rfl : result = none := running
  rfl

/-- A machine that a step takes to another depth has no result. -/
theorem running_of_depth_ne {m : Machine} (h : m.step.depth ≠ m.depth) : m.result = none := by
  cases hr : m.result with
  | none => rfl
  | some outcome => exact absurd (congrArg depth (step_eq_self hr)) h

theorem step_of_ok {m : Machine} {next : Next} {b : Active} (running : m.result = none)
    (h : Action.instruction m.environment m.active = .ok next b) :
    m.step = follow m.setting m.suspended b next := by
  rw [step_eq running, h]

/-- The outcome of a frame that ends goes to its callers. -/
theorem step_of_ends {m : Machine} {outcome : Outcome} {b : Active} (running : m.result = none)
    (ends : m.Ends outcome b) : m.step = unwind m.setting m.suspended b outcome := by
  cases ends with
  | halt h => exact step_of_ok running h
  | fault h => rw [step_eq running, h]

/-- A step of a running machine does one of these things. -/
theorem moves_step {m : Machine} (running : m.result = none) (room : m.Room) :
    m.Moves m.step := by
  rw [step_eq running]
  cases h : Action.instruction m.environment m.active with
  | error fault b => exact moves_of_ends running room (.fault h)
  | ok next b =>
      cases next with
      | proceed =>
          have moved := Moves.proceed h
          rw [running] at moved
          exact moved
      | enter callee purpose reversion =>
          have moved := Moves.enter h
          rw [running] at moved
          exact moved
      | halt output => exact moves_of_ends running room (.halt h)

theorem Ends.unique {m : Machine} {o o' : Outcome} {b b' : Active} (h : m.Ends o b)
    (h' : m.Ends o' b') : o = o' ∧ b = b' := by
  cases h with
  | halt h =>
      cases h' with
      | halt h' =>
          rw [h] at h'
          cases h'
          exact ⟨rfl, rfl⟩
      | fault h' =>
          rw [h] at h'
          cases h'
  | fault h =>
      cases h' with
      | halt h' =>
          rw [h] at h'
          cases h'
      | fault h' =>
          rw [h] at h'
          cases h'
          exact ⟨rfl, rfl⟩

/-- How the next instruction ends the running frame, if it does, and the state that it leaves. -/
def ending? (m : Machine) : Option (Outcome × Active) :=
  match Action.instruction m.environment m.active with
  | .ok (.halt output) b => some (.success output, b)
  | .ok _ _ => none
  | .error fault b => some (.failure fault, b)

theorem ending?_eq_some {m : Machine} {outcome : Outcome} {b : Active} :
    m.ending? = some (outcome, b) ↔ m.Ends outcome b := by
  constructor
  · intro h
    unfold ending? at h
    split at h
    · obtain ⟨rfl, rfl⟩ := Prod.mk.inj (Option.some.inj h)
      exact .halt ‹_›
    · cases h
    · obtain ⟨rfl, rfl⟩ := Prod.mk.inj (Option.some.inj h)
      exact .fault ‹_›
  · intro ends
    cases ends with
    | halt h => rw [ending?, h]
    | fault h => rw [ending?, h]

/-- The instruction behind a step that goes deeper enters a callee. -/
theorem instruction_of_deeper {m n : Machine} (h : m.Moves n) (deeper : m.depth < n.depth) :
    ∃ callee purpose reversion b,
      Action.instruction m.environment m.active = .ok (.enter callee purpose reversion) b ∧ n =
        { m with
          active := ⟨callee, b.world⟩
          suspended := waiting purpose reversion b :: m.suspended } := by
  cases h with
  | enter h => exact ⟨_, _, _, _, h, rfl⟩
  | proceed h => exact absurd deeper (Nat.lt_irrefl _)
  | finish ends alone => exact absurd deeper (Nat.lt_irrefl _)
  | resume ends callers runs =>
      have hlength : m.depth = _ + 1 := congrArg List.length callers
      exact absurd (Nat.lt_trans (hlength ▸ Nat.lt_succ_self _) deeper) (Nat.lt_irrefl _)

/-- A step that goes deeper has entered a callee. -/
theorem moves_deeper {m n : Machine} (h : m.Moves n) (deeper : m.depth < n.depth) :
    ∃ callee purpose reversion b, m.active.Enters m.depth callee purpose reversion b ∧
      n = { m with
        active := ⟨callee, b.world⟩, suspended := waiting purpose reversion b :: m.suspended } := by
  obtain ⟨callee, purpose, reversion, b, h, hn⟩ := instruction_of_deeper h deeper
  exact ⟨callee, purpose, reversion, b, Action.instruction_enters h, hn⟩

/-- A step that comes back up has ended a frame into its caller. -/
theorem moves_back {m n : Machine} (h : m.Moves n) (back : n.depth < m.depth) :
    ∃ outcome b s f, m.Ends outcome b ∧ m.suspended = s :: n.suspended ∧
      n = { m with
        active := ⟨f, s.settled b.frame.gas outcome b.world⟩, suspended := n.suspended } := by
  cases h with
  | proceed h => exact absurd back (Nat.lt_irrefl _)
  | enter h => exact absurd (Nat.lt_trans (Nat.lt_succ_self _) back) (Nat.lt_irrefl _)
  | finish ends alone => exact absurd back (Nat.lt_irrefl _)
  | resume ends callers runs => exact ⟨_, _, _, _, ends, callers, rfl⟩

theorem step_of_proceed {m : Machine} {b : Active} (running : m.result = none)
    (h : Action.instruction m.environment m.active = .ok .proceed b) :
    m.step = { m with active := b } := by
  rw [step_of_ok running h]
  show Machine.mk _ _ _ none = _
  rw [running]

theorem step_of_enter {m : Machine} {callee : Frame} {purpose : Purpose} {reversion : Accounts}
    {b : Active} (running : m.result = none)
    (h : Action.instruction m.environment m.active = .ok (.enter callee purpose reversion) b) :
    m.step = { m with
      active := ⟨callee, b.world⟩, suspended := waiting purpose reversion b :: m.suspended } := by
  rw [step_of_ok running h]
  show Machine.mk _ _ _ none = _
  rw [running]
  rfl

/-- Room is kept: the caller of a new callee has it, and the others wait as before. -/
theorem Room.of_moves {m n : Machine} (room : m.Room) (h : m.Moves n) : n.Room := by
  cases h with
  | proceed h => exact room
  | enter h =>
      intro s hs
      obtain rfl | hs := List.mem_cons.1 hs
      · have enters := Action.instruction_enters h
        exact ⟨enters.room, enters.output⟩
      · exact room s hs
  | resume ends callers runs =>
      intro s hs
      refine room s ?_
      rw [callers]
      exact List.mem_cons_of_mem _ hs
  | finish ends alone => exact room

theorem Room.step {m : Machine} (room : m.Room) : m.step.Room := by
  cases hr : m.result with
  | some outcome =>
      rw [step_eq_self hr]
      exact room
  | none => exact room.of_moves (moves_step hr room)

/-! ## Reachable machines -/

/-- A machine that a prepared transaction has been stepped to. -/
inductive Reachable : Machine → Prop where
  | prepared {tx : Transaction} {gasLimit : UInt64} {before m : Machine}
      (h : tx.prepare gasLimit before = .ok m) : Reachable m
  | stepped {m : Machine} (h : m.Reachable) : Reachable m.step

/-- In a reachable machine every caller has room for its answer. -/
theorem Reachable.room {m : Machine} (h : m.Reachable) : m.Room := by
  induction h with
  | prepared h =>
      obtain ⟨_, rfl⟩ := Transaction.prepare_eq_ok.1 h
      exact nofun
  | stepped _ ih => exact ih.step

theorem Reachable.iterate {m : Machine} (h : m.Reachable) (n : Nat) : (step^[n] m).Reachable := by
  induction n with
  | zero => exact h
  | succ n ih =>
      rw [Function.iterate_succ_apply']
      exact ih.stepped

/-- A machine with a result has no suspended frames. -/
theorem Reachable.alone_of_result {m : Machine} (h : m.Reachable) (result : m.result.isSome) :
    m.suspended = [] := by
  induction h with
  | prepared h => exact (Transaction.starts_alone h).2
  | stepped h ih =>
      rename_i m
      cases hr : m.result with
      | some outcome =>
          rw [step_eq_self hr] at result ⊢
          exact ih result
      | none =>
          have moves := moves_step hr h.room
          generalize m.step = n at moves result ⊢
          cases moves with
          | finish ends alone => exact alone
          | _ => simp [hr] at result

/-- While frames are suspended there is no result. -/
theorem Reachable.running_of_suspended {m : Machine} {s : Suspended} {rest : List Suspended}
    (h : m.Reachable) (callers : m.suspended = s :: rest) : m.result = none := by
  cases hr : m.result with
  | none => rfl
  | some outcome =>
      have alone := h.alone_of_result (by rw [hr]; rfl)
      exact absurd (callers.symm.trans alone) nofun

/-- Running for some steps is taking them: once there is a result, a step changes nothing. -/
theorem runFor_eq_iterate (n : Nat) (m : Machine) : runFor n m = step^[n] m := by
  induction n generalizing m with
  | zero => rfl
  | succ n ih =>
      rw [Function.iterate_succ_apply, ← ih]
      cases hr : m.result with
      | none => exact runFor_succ_of_running hr n
      | some outcome =>
          have result : m.result.isSome := by rw [hr]; rfl
          rw [step_of_result result, runFor_of_result result, runFor_of_result result]

/-- What follows the first state with a result is that state. -/
theorem iterate_of_result {m : Machine} {n k : Nat} (result : (step^[n] m).result.isSome)
    (h : n ≤ k) : step^[k] m = step^[n] m := by
  obtain ⟨more, rfl⟩ := Nat.exists_eq_add_of_le' h
  rw [Function.iterate_add_apply, ← runFor_eq_iterate, runFor_of_result result]

end Machine

end EvmHarness
