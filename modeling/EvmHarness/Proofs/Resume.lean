import EvmHarness.Machine
import EvmHarness.Proofs.FrameRun
set_option autoImplicit false

/-!
# How a caller takes an outcome up

A caller goes on with the gas that its callee has left, in the world that its callee leaves or in
the one it has kept.  Nothing can go wrong in that as long as there is room on its stack for the
answer.
-/

namespace EvmHarness

namespace Suspended

/-- Whether a caller takes the outcome of its callee for a failure: the callee failed, or the code
of a new account cannot be deposited. -/
def Refuses (s : Suspended) (gasLeft : Nat) (outcome : Outcome) (w : World) : Prop :=
  match outcome, s.purpose with
  | .failure _, _ => True
  | .success _, .call _ _ => False
  | .success output, .create address => ∃ fault, w.deposit address output gasLeft = .error fault

/-- The world that a caller goes on in, given the one that its callee ends in. -/
def settled (s : Suspended) (gasLeft : Nat) (outcome : Outcome) (w : World) : World :=
  match outcome, s.purpose with
  | .failure _, _ => w.revert s.reversion s.logMark
  | .success _, .call _ _ => w
  | .success output, .create address =>
    match w.deposit address output gasLeft with
    | .ok (_, deposited) => deposited
    | .error _ => w.revert s.reversion s.logMark

theorem settled_of_refuses {s : Suspended} {gasLeft : Nat} {outcome : Outcome} {w : World}
    (h : s.Refuses gasLeft outcome w) :
    s.settled gasLeft outcome w = w.revert s.reversion s.logMark := by
  unfold Refuses at h
  unfold settled
  cases outcome with
  | failure fault => rfl
  | success output =>
      cases hp : s.purpose with
      | call offset size =>
          rw [hp] at h
          exact absurd h id
      | create address =>
          rw [hp] at h
          obtain ⟨fault, hd⟩ := h
          dsimp only
          rw [hd]

/-- A deposit spends gas and changes the code of the new account only, to code of a limited size. -/
theorem deposit_eq_ok {w deposited : World} {address : Address} {code : ByteArray}
    {gas left : Nat} (h : w.deposit address code gas = .ok (left, deposited)) :
    left ≤ gas ∧ code.size ≤ codeSizeLimit ∧
      deposited = w.mapAccounts (·.update address (·.withCode code)) := by
  unfold World.deposit at h
  dsimp only at h
  split at h
  · exact absurd h nofun
  · rename_i size
    split at h
    · exact absurd h nofun
    · split at h
      · exact absurd h nofun
      · obtain ⟨rfl, rfl⟩ := Prod.mk.inj (Except.ok.inj h)
        exact ⟨Nat.sub_le _ _, Nat.le_of_not_lt size, rfl⟩

/-- What a caller's world becomes: after a call what its callee left, after a creation that with
code deposited, or what was there before. -/
theorem settled_cases (s : Suspended) (gasLeft : Nat) (outcome : Outcome) (w : World) :
    (∃ offset size, s.purpose = .call offset size) ∧ s.settled gasLeft outcome w = w ∨
      (∃ address code, s.purpose = .create address ∧ code.size ≤ codeSizeLimit ∧
        s.settled gasLeft outcome w = w.mapAccounts (·.update address (·.withCode code))) ∨
      s.settled gasLeft outcome w = w.revert s.reversion s.logMark := by
  unfold settled
  cases outcome with
  | failure fault => exact .inr (.inr rfl)
  | success output =>
      cases hp : s.purpose with
      | call offset size => exact .inl ⟨⟨_, _, rfl⟩, rfl⟩
      | create address =>
          dsimp only
          cases hd : w.deposit address output gasLeft with
          | ok left =>
              obtain ⟨_, size, deposited⟩ := deposit_eq_ok hd
              exact .inr (.inl ⟨address, output, rfl, size, deposited⟩)
          | error fault => exact .inr (.inr rfl)

/-- The frame of a caller that is given all the gas its callee has left. -/
def given (s : Suspended) (gasLeft : Nat) : Frame :=
  { s.frame with gas := s.frame.gas + gasLeft }

/-- There is room on the stack for the answer, and in memory for the output that a call asked
for. -/
structure HasRoom (s : Suspended) : Prop where
  stack : s.frame.stack.size < Stack.limit
  output : ∀ offset size, s.purpose = .call offset size → s.frame.memory.covers offset size = true

/-- A frame with room takes return data and an answer. -/
theorem answered {s : Suspended} {gasLeft gas : Nat} (hgas : gas ≤ s.frame.gas + gasLeft)
    (room : s.HasRoom) (data : ByteArray) (w : Word) :
    ∃ f, (do deliver s.purpose data; FrameM.push w : FrameM Unit)
        { s.frame with gas := gas, returnData := data } = .ok () f ∧
      (s.given gasLeft).Runs f := by
  have starts : (s.given gasLeft).Runs { s.frame with gas := gas, returnData := data } :=
    (Frame.Pays.spend (s.given gasLeft) hgas).toRuns.trans (Frame.Pays.returnData _ data).toRuns
  have delivered : ∃ g, deliver s.purpose data { s.frame with gas := gas, returnData := data } =
      .ok () g ∧ Frame.Pays { s.frame with gas := gas, returnData := data } g := by
    cases hp : s.purpose with
    | call offset size =>
        have covered := Memory.covers_min (room.output offset size hp) data.size
        have stored := FrameM.store_pays { s.frame with gas := gas, returnData := data } covered data
        exact ⟨_, rfl, stored⟩
    | create address => exact ⟨_, rfl, .refl _⟩
  obtain ⟨g, hg, pays⟩ := delivered
  have free : g.stack.size < Stack.limit := by
    rw [pays.stack]
    exact room.stack
  have pushed := FrameM.push_apply w g
  rw [if_pos free] at pushed
  refine ⟨_, bind_eq_ok.2 ⟨_, _, hg, pushed⟩, ?_⟩
  exact starts.trans (pays.toRuns.trans (.stack g fun _ => free))

theorem resumeAfterFault_eq_ok {s : Suspended} (room : s.HasRoom) (gasLeft : Nat) (fault : Fault) :
    ∃ f, s.resumeAfterFault gasLeft fault s.frame = .ok () f ∧ (s.given gasLeft).Runs f := by
  have lost : ∃ f, (do
        modify fun f => { f with returnData := ByteArray.empty }
        FrameM.push 0 : FrameM Unit) s.frame = .ok () f ∧ (s.given gasLeft).Runs f := by
    have spent : (s.given gasLeft).Runs s.frame :=
      (Frame.Pays.spend (s.given gasLeft) (Nat.le_add_right _ _)).toRuns
    have pushed := FrameM.push_apply 0 { s.frame with returnData := ByteArray.empty }
    rw [if_pos room.stack] at pushed
    have cleared : s.frame.Runs { s.frame with returnData := ByteArray.empty } :=
      (Frame.Pays.returnData _ _).toRuns
    exact ⟨_, pushed, spent.trans (cleared.trans (.stack _ fun _ => room.stack))⟩
  cases fault with
  | reverted data => exact answered (Saturating.add_le _ _) room data 0
  | _ => exact lost

theorem resumeAfterSuccess_eq_ok {s : Suspended} (room : s.HasRoom) (gasLeft : Nat)
    (output : ByteArray) :
    ∃ f, s.resumeAfterSuccess gasLeft output s.frame = .ok () f ∧ (s.given gasLeft).Runs f := by
  have gas := Saturating.add_le s.frame.gas gasLeft
  unfold resumeAfterSuccess
  cases hp : s.purpose with
  | call offset size =>
      have answers := answered gas room output 1
      rw [hp] at answers
      exact answers
  | create address =>
      have answers := answered gas room ByteArray.empty address.toWord
      rw [hp] at answers
      exact answers

/-- A caller with room takes up every outcome of its callee. -/
theorem resume_eq_ok {s : Suspended} (room : s.HasRoom) (gasLeft : Nat) (outcome : Outcome)
    (w : World) :
    ∃ f, s.resume gasLeft outcome w = .ok () ⟨f, s.settled gasLeft outcome w⟩ ∧
      (s.given gasLeft).Runs f := by
  have fails : ∀ fault, ∃ f, Action.onFrame (s.resumeAfterFault gasLeft fault) default
      ⟨s.frame, w.revert s.reversion s.logMark⟩ =
        .ok () ⟨f, w.revert s.reversion s.logMark⟩ ∧ (s.given gasLeft).Runs f := by
    intro fault
    obtain ⟨f, hf, runs⟩ := resumeAfterFault_eq_ok room gasLeft fault
    exact ⟨f, Action.onFrame_of_eq_ok (a := ⟨s.frame, _⟩) hf _, runs⟩
  unfold resume settled
  cases outcome with
  | failure fault => exact fails fault
  | success output =>
      cases hp : s.purpose with
      | call offset size =>
          obtain ⟨f, hf, runs⟩ := resumeAfterSuccess_eq_ok room gasLeft output
          exact ⟨f, Action.onFrame_of_eq_ok (a := ⟨s.frame, w⟩) hf _, runs⟩
      | create address =>
          dsimp only
          cases hd : w.deposit address output gasLeft with
          | error fault => exact fails fault
          | ok deposited =>
              obtain ⟨left, w'⟩ := deposited
              obtain ⟨f, hf, runs⟩ := resumeAfterSuccess_eq_ok room left output
              have less : (s.given gasLeft).Runs (s.given left) :=
                (Frame.Pays.spend _ (Nat.add_le_add_left (deposit_eq_ok hd).1 _)).toRuns
              exact ⟨f, Action.onFrame_of_eq_ok (a := ⟨s.frame, w'⟩) hf _, less.trans runs⟩

end Suspended

end EvmHarness
