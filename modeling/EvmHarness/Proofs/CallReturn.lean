import EvmHarness.Proofs.GasBudget
import EvmHarness.Proofs.LookUp
import EvmHarness.Proofs.MemoryView
import EvmHarness.Proofs.WellFormed
import Mathlib.Data.Nat.Find
set_option autoImplicit false

/-!
# What a caller gets back

A caller waits, as it was suspended, while its callee runs with whatever callees of its own.  Then
it goes on with a word that says how the callee ended, with the return data, the start of which has
been written to the place that the call named, and with the gas that comes back.
-/

namespace EvmHarness

namespace Outcome

/-- The word that says how a callee ended. -/
def answer : Outcome → Word
  | success _ => 1
  | failure _ => 0

/-- What a callee returns: the output of a success, the data of a reversion, and nothing after any
other failure. -/
def returnData : Outcome → ByteArray
  | success output => output
  | failure (.reverted data) => data
  | failure _ => ByteArray.empty

/-- The gas that comes back: what the callee has left after a success or a reversion, and nothing
after any other failure. -/
def gasBack (gasLeft : Nat) : Outcome → Nat
  | success _ => gasLeft
  | failure (.reverted _) => gasLeft
  | failure _ => 0

end Outcome

/-- What a caller gets back that has asked for up to `size` bytes at `offset`, between its frame as
it was suspended and the one in which it goes on: everything else is as it was. -/
structure Frame.GetsBack (c : Frame) (offset size : Nat) (outcome : Outcome) (gasLeft : Nat)
    (f : Frame) : Prop where
  same : f = { c with
    stack := f.stack, memory := f.memory, gas := f.gas, returnData := f.returnData }
  stack : f.stack.words = outcome.answer :: c.stack.words
  returnData : f.returnData = outcome.returnData
  gas : f.gas = c.gas + outcome.gasBack gasLeft
  memorySize : f.memory.size = c.memory.size
  copied : ∀ i < min size outcome.returnData.size,
    f.memory.byteAt (offset + i) = Bytes.byteAt outcome.returnData i
  kept : ∀ i, i < offset ∨ offset + min size outcome.returnData.size ≤ i →
    f.memory.byteAt i = c.memory.byteAt i

/-- It does not matter where no bytes are asked for. -/
theorem Frame.GetsBack.of_empty {c f : Frame} {offset gasLeft : Nat} {outcome : Outcome}
    (h : c.GetsBack offset 0 outcome gasLeft f) (other : Nat) :
    c.GetsBack other 0 outcome gasLeft f where
  same := h.same
  stack := h.stack
  returnData := h.returnData
  gas := h.gas
  memorySize := h.memorySize
  copied i hi := absurd hi (by omega)
  kept i _ := h.kept i (by omega)

namespace Suspended

variable {s : Suspended} {offset size gasLeft : Nat}

/-! ## Taking an outcome up -/

/-- The frame in which a caller goes on that waits for output at some place. -/
def goesOn (s : Suspended) (offset size : Nat) (outcome : Outcome) (gasLeft : Nat) : Frame :=
  { s.frame with
    stack := ⟨outcome.answer :: s.frame.stack.words⟩
    memory := s.frame.memory.store offset (min size outcome.returnData.size) outcome.returnData
    gas := s.frame.gas + outcome.gasBack gasLeft
    returnData := outcome.returnData }

/-- After an outcome that gives nothing back, the memory and the gas are as they were. -/
theorem goesOn_of_nothing {outcome : Outcome} (data : outcome.returnData = ByteArray.empty)
    (gas : outcome.gasBack gasLeft = 0) :
    s.goesOn offset size outcome gasLeft = { s.frame with
      stack := ⟨outcome.answer :: s.frame.stack.words⟩, returnData := ByteArray.empty } := by
  have nothing : min size ByteArray.empty.size = 0 := Nat.min_zero size
  rw [goesOn, data, gas, nothing]
  rfl

/-- Where gas comes back, the data is delivered before the answer is pushed. -/
theorem deliver_apply (room : s.HasRoom) (counter : s.frame.gas + gasLeft ≤ Saturating.limit)
    (data : ByteArray) (w : Word) :
    (do
      modify fun f => { f with gas := Saturating.add f.gas gasLeft, returnData := data }
      deliver (.call offset size) data
      FrameM.push w : FrameM Unit) s.frame =
    .ok () { s.frame with
      stack := ⟨w :: s.frame.stack.words⟩
      memory := s.frame.memory.store offset (min size data.size) data
      gas := s.frame.gas + gasLeft
      returnData := data } := by
  have pushed := FrameM.push_apply w { s.frame with
    memory := s.frame.memory.store offset (min size data.size) data
    gas := Saturating.add s.frame.gas gasLeft
    returnData := data }
  rw [if_pos room.stack] at pushed
  rw [← Saturating.add_eq counter]
  exact pushed

theorem resumeAfterFault_of_call (waits : s.purpose = .call offset size) (room : s.HasRoom)
    (counter : s.frame.gas + gasLeft ≤ Saturating.limit) (fault : Fault) :
    s.resumeAfterFault gasLeft fault s.frame =
      .ok () (s.goesOn offset size (.failure fault) gasLeft) := by
  have lost := FrameM.push_apply 0 { s.frame with returnData := ByteArray.empty }
  rw [if_pos room.stack] at lost
  cases fault with
  | reverted data =>
      unfold resumeAfterFault
      rw [waits]
      exact deliver_apply room counter data 0
  | _ =>
      rw [goesOn_of_nothing rfl rfl]
      exact lost

/-- A caller takes every outcome up, each in the same way but for what it gets back. -/
theorem resume_of_call (waits : s.purpose = .call offset size) (room : s.HasRoom)
    (counter : s.frame.gas + gasLeft ≤ Saturating.limit) (outcome : Outcome) (w : World) :
    s.resume gasLeft outcome w =
      .ok () ⟨s.goesOn offset size outcome gasLeft, s.settled gasLeft outcome w⟩ := by
  unfold resume settled
  cases outcome with
  | failure fault =>
      have taken := resumeAfterFault_of_call waits room counter fault
      exact Action.onFrame_of_eq_ok (a := ⟨s.frame, w.revert s.reversion s.logMark⟩) taken _
  | success output =>
      have taken : s.resumeAfterSuccess gasLeft output s.frame =
          .ok () (s.goesOn offset size (.success output) gasLeft) := by
        unfold resumeAfterSuccess
        rw [waits]
        exact deliver_apply room counter output 1
      rw [waits]
      exact Action.onFrame_of_eq_ok (a := ⟨s.frame, w⟩) taken _

/-- What the caller goes on with is what it gets back. -/
theorem getsBack_goesOn (fits : s.frame.memory.Fits)
    (covered : s.frame.memory.covers offset size = true) (outcome : Outcome) (gasLeft : Nat) :
    s.frame.GetsBack offset size outcome gasLeft (s.goesOn offset size outcome gasLeft) := by
  have written := Memory.covers_min covered outcome.returnData.size
  have same := fits.extend_of_covers written
  have byteAt := Memory.byteAt_store outcome.returnData (same.symm ▸ written)
  constructor
  case same => rfl
  case stack => rfl
  case returnData => rfl
  case gas => rfl
  case memorySize =>
    have size := Memory.size_store outcome.returnData (same.symm ▸ written)
    rw [same] at size
    exact size
  case copied =>
    intro i hi
    show (s.frame.memory.store _ _ _).byteAt _ = _
    rw [byteAt, if_pos (by omega), Nat.add_sub_cancel_left,
      Memory.byteAt_fit (Nat.min_le_right _ _) hi]
  case kept =>
    intro i hi
    show (s.frame.memory.store _ _ _).byteAt _ = _
    rw [byteAt, if_neg (by omega)]

end Suspended

/-! ## The place that a call names -/

namespace Action

variable {env : Environment} {a b c : Active} {scheme : CallScheme} {opened : OpenedCall}

/-- The place for the output is where the request says, unless it is empty. -/
theorem openCall_place (inputs : (Operation.call scheme).info.inputs ≤ a.frame.stack.size)
    (h : openCall scheme env a = .ok opened b) :
    opened.output.2 = (a.request scheme).outputSize.toNat ∧
      (opened.output.2 = 0 ∨ opened.output.1 = (a.request scheme).outputOffset.toNat) := by
  have popped := CallRequest.pop_apply (f := a.frame) inputs
  unfold openCall at h
  rw [bind_of_eq_ok (onFrame_of_eq_ok popped env), get_bind] at h
  have rest : ∀ a₁, (do
      let input ← region (a.request scheme).inputOffset (a.request scheme).inputSize
      let output ← region (a.request scheme).outputOffset (a.request scheme).outputSize
      let code ← payForCall (a.request scheme)
      let forwarded ← forwardGas (a.request scheme).gas
      clearReturnData
      return { request := a.request scheme, code, forwarded, input, output } :
        Action OpenedCall) env a₁ = .ok opened b →
      opened.output.2 = (a.request scheme).outputSize.toNat ∧
        (opened.output.2 = 0 ∨ opened.output.1 = (a.request scheme).outputOffset.toNat) := by
    intro a₁ h
    obtain ⟨input, a₂, _, h⟩ := bind_eq_ok.1 h
    obtain ⟨output, a₃, made, h⟩ := bind_eq_ok.1 h
    obtain ⟨code, a₄, _, h⟩ := bind_eq_ok.1 h
    obtain ⟨forwarded, a₅, _, h⟩ := bind_eq_ok.1 h
    obtain ⟨_, a₆, _, h⟩ := bind_eq_ok.1 h
    obtain ⟨rfl, rfl⟩ := pure_eq_ok.1 h
    obtain ⟨made, _⟩ := onFrame_eq_ok.1 made
    exact ⟨(FrameM.region_eq_ok made).1, FrameM.region_place made⟩
  split at h
  · obtain ⟨_, _, thrown, _⟩ := bind_eq_ok.1 h
    exact absurd thrown throw_ne_ok
  · exact rest _ h

/-- A call that has started its callee waits at the place that was made usable. -/
theorem startCall_enters {callee : Frame} {purpose : Purpose} {reversion : Accounts}
    (h : startCall scheme opened env b = .ok (.enter callee purpose reversion) c) :
    purpose = .call opened.output.1 opened.output.2 ∧ c.frame = b.frame := by
  rw [startCall_apply] at h
  cases hm : callTransfer? scheme opened env b with
  | none =>
      rw [hm] at h
      exact absurd (answer_eq_ok h).1 nofun
  | some moved =>
      rw [hm] at h
      dsimp only at h
      split at h
      · exact absurd (answer_eq_ok h).1 nofun
      · obtain ⟨hnext, rfl⟩ := EStateM.Result.ok.inj h
        exact ⟨(Next.enter.inj hnext).2.1.symm, rfl⟩

/-- A call that enters a callee has taken its operands off the stack, and waits for the output at
the place that they name. -/
theorem instruction_awaits {callee : Frame} {purpose : Purpose} {reversion : Accounts}
    (operation : a.operation? = some (.call scheme))
    (h : instruction env a = .ok (.enter callee purpose reversion) c) :
    c.frame.stack.words = a.frame.stack.words.drop (Operation.call scheme).info.inputs ∧
      ∃ offset size, purpose = .call offset size ∧ size = (a.request scheme).outputSize.toNat ∧
        (size = 0 ∨ offset = (a.request scheme).outputOffset.toNat) := by
  obtain ⟨op, starts, performed⟩ := instruction_eq_ok h
  obtain rfl := Option.some.inj (operation.symm.trans starts.operation)
  obtain ⟨opened, b, opens, started⟩ := bind_eq_ok.1 performed
  obtain ⟨waits, frame⟩ := startCall_enters started
  refine ⟨?_, _, _, waits, openCall_place (a := a.started (.call scheme)) starts.inputs opens⟩
  rw [frame]
  exact (openCall_eq_ok opens).stack

end Action

namespace Machine

variable {s : Machine}

/-! ## The run of a callee -/

/-- The next step enters a callee, which runs up to the state after `n` steps, with its caller
suspended all the while, and ends there with an outcome. -/
structure RunsCallee (s : Machine) (n : Nat) (c : Suspended) (outcome : Outcome) (b : Active) :
    Prop where
  enters : s.step.suspended = c :: s.suspended
  deeper : ∀ k, 0 < k → k ≤ n → s.depth < (step^[k] s).depth
  waits : (step^[n] s).suspended = c :: s.suspended
  ends : (step^[n] s).Ends outcome b

/-- A run that has gone deeper comes back. -/
theorem Reachable.exists_back (reachable : s.Reachable) (entered : s.depth < s.step.depth) :
    ∃ n, 0 < n ∧ (∀ k, 0 < k → k ≤ n → s.depth < (step^[k] s).depth) ∧
      (step^[n + 1] s).depth ≤ s.depth := by
  have running := running_of_depth_ne (Nat.ne_of_gt entered)
  obtain ⟨last, _, _, result⟩ := exists_result reachable.room running
  have comes_back : ∃ k, (step^[k + 1] s).depth ≤ s.depth := by
    have alone := (reachable.iterate last).alone_of_result result
    refine ⟨last, ?_⟩
    rw [iterate_of_result result (Nat.le_succ last), depth, alone]
    exact Nat.zero_le _
  refine ⟨Nat.find comes_back, ?_, ?_, Nat.find_spec comes_back⟩
  · refine (Nat.find_pos comes_back).2 fun back => ?_
    exact absurd back (Nat.not_le_of_lt entered)
  · intro k hk hle
    obtain ⟨k, rfl⟩ := Nat.exists_eq_add_of_lt hk
    rw [Nat.zero_add] at hle ⊢
    exact Nat.lt_of_not_le (Nat.find_min comes_back hle)

theorem carries_nothing (m : Machine) : m.Carries (.uniform (fun _ => True) fun _ => True) where
  proceed _ _ := trivial
  enter _ _ := ⟨trivial, trivial⟩
  ends _ _ := trivial
  resume _ _ _ := trivial

/-- Every callee that is entered ends. -/
theorem Reachable.exists_runsCallee (reachable : s.Reachable) (entered : s.depth < s.step.depth) :
    ∃ n c outcome b, s.RunsCallee n c outcome b := by
  have running := running_of_depth_ne (Nat.ne_of_gt entered)
  obtain ⟨n, ran, deeper, back⟩ := reachable.exists_back entered
  obtain ⟨callee, purpose, reversion, b, h, hstep⟩ :=
    instruction_of_deeper (moves_step running reachable.room) entered
  have inside := (holds_entered running h trivial).nested reachable.room ran deeper carries_nothing
  rw [Function.iterate_succ_apply'] at back
  obtain ⟨outcome, b', f, ends, _, waits, _, _⟩ := inside.back (carries_nothing _)
    (reachable.iterate n).room (deeper n ran (Nat.le_refl n)) back
  exact ⟨n, _, outcome, b', by rw [hstep], deeper, waits, ends⟩

namespace RunsCallee

variable {n : Nat} {c : Suspended} {outcome : Outcome} {b : Active}

/-- The gas of a caller and what its callee has left are a counter together. -/
theorem counter (runs : s.RunsCallee n c outcome b) (reachable : s.Reachable) :
    c.frame.gas + b.frame.gas ≤ Saturating.limit := by
  have total := (reachable.iterate n).totalGas_le_limit
  have ends : b.frame.gas ≤ (step^[n] s).active.frame.gas := runs.ends.frame.gas
  have split : (step^[n] s).totalGas = (step^[n] s).active.frame.gas +
      (c.frame.gas + suspendedGas s.suspended) := by
    show _ + suspendedGas (step^[n] s).suspended = _
    rw [runs.waits]
    rfl
  omega

/-- The caller has taken the operands of its call off the stack, and waits for the output at the
place that they name. -/
theorem awaits {scheme : CallScheme} (runs : s.RunsCallee n c outcome b) (reachable : s.Reachable)
    (operation : s.active.operation? = some (.call scheme)) :
    c.frame.stack.words = s.frame.stack.words.drop (Operation.call scheme).info.inputs ∧
      ∃ offset size, c.purpose = .call offset size ∧
        size = (s.active.request scheme).outputSize.toNat ∧
        (size = 0 ∨ offset = (s.active.request scheme).outputOffset.toNat) := by
  have suspended := runs.enters
  have entered : s.depth < s.step.depth := by
    rw [depth, depth, suspended]
    exact Nat.lt_succ_self _
  have running := running_of_depth_ne (Nat.ne_of_gt entered)
  obtain ⟨callee, purpose, reversion, caller, h, hstep⟩ :=
    instruction_of_deeper (moves_step running reachable.room) entered
  rw [hstep] at suspended
  obtain ⟨rfl, _⟩ := List.cons.inj suspended
  exact Action.instruction_awaits operation h

/-- When the callee has ended, its caller goes on with what it gets back. -/
theorem goesOn {offset size : Nat} (runs : s.RunsCallee n c outcome b) (reachable : s.Reachable)
    (waits : c.purpose = .call offset size) :
    (step^[n + 1] s).result = none ∧ (step^[n + 1] s).suspended = s.suspended ∧
      c.frame.GetsBack offset size outcome b.frame.gas (step^[n + 1] s).frame := by
  have last := reachable.iterate n
  have running := last.running_of_suspended runs.waits
  have member : c ∈ (step^[n] s).suspended := by
    rw [runs.waits]
    exact List.mem_cons_self
  have room := last.room c member
  obtain ⟨_, formed⟩ := last.holds_forming.of_mem member
  have taken := Suspended.resume_of_call waits room (runs.counter reachable) outcome b.world
  rw [Function.iterate_succ_apply', step_of_ends running runs.ends, runs.waits,
    unwind_of_resume_ok taken]
  exact ⟨rfl, rfl, Suspended.getsBack_goesOn formed.fits.memory (room.output offset size waits) _ _⟩

end RunsCallee

/-- The callee of a call ends.  In the first state back at the depth of the caller, its frame is
what it was when it was suspended, but for what it gets back: an answer on the stack, return data,
the start of that in memory, and gas. -/
theorem caller_gets_back {scheme : CallScheme} (reachable : s.Reachable)
    (operation : s.active.operation? = some (.call scheme)) (entered : s.depth < s.step.depth) :
    (∃ n c outcome b, s.RunsCallee n c outcome b) ∧
      ∀ n c outcome b, s.RunsCallee n c outcome b →
        c.frame.stack.words = s.frame.stack.words.drop (Operation.call scheme).info.inputs ∧
        (step^[n + 1] s).result = none ∧ (step^[n + 1] s).suspended = s.suspended ∧
        c.frame.GetsBack (s.active.request scheme).outputOffset.toNat
          (s.active.request scheme).outputSize.toNat outcome b.frame.gas
          (step^[n + 1] s).frame := by
  refine ⟨reachable.exists_runsCallee entered, fun n c outcome b runs => ?_⟩
  obtain ⟨words, offset, size, waits, rfl, place⟩ := runs.awaits reachable operation
  obtain ⟨running, suspended, back⟩ := runs.goesOn reachable waits
  refine ⟨words, running, suspended, ?_⟩
  obtain empty | rfl := place
  · rw [empty] at back ⊢
    exact back.of_empty _
  · exact back

/-- A machine about to ask an account, which returns three bytes, for up to eight. -/
def askingCall : Machine :=
  step^[7] (Transaction.ofFirst.opening 100000 (ofCodes
    ⟨#[0x60, 8, 0x60, 4, 0x5f, 0x5f, 0x5f, 0x60, 2, 0x5a, 0xf1]⟩
    ⟨#[0x60, 0xaa, 0x5f, 0x53, 0x60, 3, 0x5f, 0xf3]⟩))

theorem askingCall_runsCallee :
    ∃ c b, askingCall.RunsCallee 6 c (.success ⟨#[0xaa, 0, 0]⟩) b := by
  obtain ⟨c, enters⟩ : ∃ c, askingCall.step.suspended = [c] :=
    List.length_eq_one_iff.1 (by decide +kernel)
  have alone : askingCall.suspended = [] := List.length_eq_zero_iff.1 (by decide +kernel)
  have deeper : ∀ k < 7, 0 < k → askingCall.depth < (step^[k] askingCall).depth := by
    decide +kernel
  have waits : (step^[6] askingCall).suspended = askingCall.step.suspended := by decide +kernel
  have ending : (step^[6] askingCall).ending?.map (·.1) = some (.success ⟨#[0xaa, 0, 0]⟩) := by
    decide +kernel
  obtain ⟨⟨_, b⟩, ending, rfl⟩ := Option.map_eq_some_iff.1 ending
  refine ⟨c, b, ?_, fun k hk hle => deeper k (Nat.lt_succ_of_le hle) hk, ?_,
    ending?_eq_some.1 ending⟩
  · rw [enters, alone]
  · rw [waits, enters, alone]

theorem askingCall_gets_back :
    ∃ c b, askingCall.RunsCallee 6 c (.success ⟨#[0xaa, 0, 0]⟩) b ∧
      c.frame.GetsBack 4 8 (.success ⟨#[0xaa, 0, 0]⟩) b.frame.gas (step^[7] askingCall).frame := by
  have reachable : askingCall.Reachable :=
    (Reachable.prepared (Transaction.prepare_ofFirst _ _)).iterate 7
  have operation : askingCall.active.operation? = some (.call .call) := by decide +kernel
  have entered : askingCall.depth < askingCall.step.depth := by decide +kernel
  have offset : (askingCall.active.request .call).outputOffset.toNat = 4 := by decide +kernel
  have size : (askingCall.active.request .call).outputSize.toNat = 8 := by decide +kernel
  obtain ⟨c, b, runs⟩ := askingCall_runsCallee
  obtain ⟨_, _, _, back⟩ := (caller_gets_back reachable operation entered).2 6 c _ b runs
  rw [offset, size] at back
  exact ⟨c, b, runs, back⟩

end Machine

end EvmHarness
