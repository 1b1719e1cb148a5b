import EvmHarness.Proofs.InstructionRun
set_option autoImplicit false

/-!
# What an instruction fails with

Nearly every fault of an instruction has a class: it is expected, or no well-formed program causes
it.  A chain of actions raises what its links raise, so this is shown link by link.  Two faults
without a class are raised by instructions at all, and each hangs on the state that it is raised
in: a change that is tried in a static frame, and return data that is read past its end.
-/

namespace EvmHarness

variable {ε σ α β : Type}

/-- A fault that is expected, or that no well-formed program causes. -/
def Fault.Classed (fault : Fault) : Prop := fault.severity ≠ .unknown

instance (fault : Fault) : Decidable fault.Classed := inferInstanceAs (Decidable (_ ≠ _))

/-! ## The faults of a chain -/

/-- Every fault of the action has the property. -/
def Raises (P : ε → Prop) (x : EStateM ε σ α) : Prop :=
  ∀ ⦃s t : σ⦄ ⦃e : ε⦄, x s = .error e t → P e

namespace Raises

variable {P : ε → Prop}

theorem pure (a : α) : Raises P (Pure.pure a : EStateM ε σ α) := nofun

theorem get : Raises P (MonadState.get : EStateM ε σ σ) := nofun

theorem set (s : σ) : Raises P (set s : EStateM ε σ PUnit) := nofun

theorem modify (change : σ → σ) : Raises P (modify change : EStateM ε σ PUnit) := nofun

theorem throw {e : ε} (h : P e) : Raises P (throw e : EStateM ε σ α) := by
  intro s t e' he
  obtain ⟨rfl, _⟩ := EStateM.Result.error.inj he
  exact h

theorem bind {x : EStateM ε σ α} {f : α → EStateM ε σ β} (hx : Raises P x)
    (hf : ∀ a, Raises P (f a)) : Raises P (x >>= f) := by
  intro s u e h
  rcases bind_eq_error.1 h with h | ⟨a, t, _, h⟩
  · exact hx h
  · exact hf a h

theorem ite {c : Prop} [Decidable c] {x y : EStateM ε σ α} (hx : Raises P x) (hy : Raises P y) :
    Raises P (if c then x else y) := by
  split
  · exact hx
  · exact hy

end Raises

/-! ## The stack -/

namespace Stack

variable {s : Stack} {n : Nat} {w : Word} {fault : Fault}

theorem classed_of_push (h : s.push w = .error fault) : fault.Classed := by
  unfold push at h
  split at h
  · exact absurd h nofun
  · obtain rfl := Except.error.inj h
    exact nofun

theorem classed_of_peek (h : s.peek n = .error fault) : fault.Classed := by
  unfold peek at h
  split at h
  · obtain rfl := Except.error.inj h
    exact nofun
  · exact absurd h nofun

theorem classed_of_popMany (h : s.popMany n = .error fault) : fault.Classed := by
  unfold popMany at h
  split at h
  · exact absurd h nofun
  · obtain rfl := Except.error.inj h
    exact nofun

theorem classed_of_dup (h : s.dup n = .error fault) : fault.Classed := by
  unfold dup at h
  cases n with
  | zero =>
      obtain rfl := Except.error.inj h
      exact nofun
  | succ i =>
      dsimp only at h
      cases hw : s.peek i with
      | ok w =>
          rw [hw] at h
          exact classed_of_push h
      | error fault' =>
          rw [hw] at h
          obtain rfl := Except.error.inj h
          exact classed_of_peek hw

theorem classed_of_swap (h : s.swap n = .error fault) : fault.Classed := by
  unfold swap at h
  split at h
  · exact absurd h nofun
  · obtain rfl := Except.error.inj h
    exact nofun

end Stack

/-! ## The operations on the frame -/

namespace FrameM

open Fault (Classed)

theorem raises_pop : Raises Classed pop := by
  intro f g fault h
  rw [pop_apply] at h
  cases hw : f.stack.words with
  | nil =>
      rw [hw] at h
      obtain ⟨rfl, _⟩ := EStateM.Result.error.inj h
      exact nofun
  | cons w rest =>
      rw [hw] at h
      exact absurd h nofun

theorem raises_push (w : Word) : Raises Classed (push w) := by
  intro f g fault h
  rw [push_apply] at h
  split at h
  · exact absurd h nofun
  · obtain ⟨rfl, _⟩ := EStateM.Result.error.inj h
    exact nofun

theorem raises_charge (amount : Nat) : Raises Classed (charge amount) := by
  intro f g fault h
  rw [charge_apply] at h
  split at h
  · exact absurd h nofun
  · obtain ⟨rfl, _⟩ := EStateM.Result.error.inj h
    exact nofun

theorem raises_region (offset size : Word) : Raises Classed (region offset size) := by
  intro f g fault h
  rw [region_apply] at h
  dsimp only at h
  repeat' split at h
  · exact absurd h nofun
  · exact absurd h nofun
  · obtain ⟨rfl, _⟩ := EStateM.Result.error.inj h
    exact nofun
  · obtain ⟨rfl, _⟩ := EStateM.Result.error.inj h
    exact nofun

/-- What a change of the stack fails with is what its words fail with. -/
theorem raises_updateStack {change : Stack → Except Fault Stack}
    (classed : ∀ {s : Stack} {fault : Fault}, change s = .error fault → fault.Classed) :
    Raises Classed (updateStack change) := by
  intro f g fault h
  unfold updateStack at h
  rw [get_bind] at h
  cases hc : change f.stack with
  | ok stack =>
      rw [hc] at h
      exact absurd h nofun
  | error fault' =>
      rw [hc] at h
      obtain ⟨rfl, _⟩ := EStateM.Result.error.inj h
      exact classed hc

theorem raises_popMany (n : Nat) : Raises Classed (popMany n) := by
  intro f g fault h
  unfold popMany at h
  rw [get_bind] at h
  cases hp : f.stack.popMany n with
  | ok popped =>
      rw [hp] at h
      exact absurd h nofun
  | error fault' =>
      rw [hp] at h
      obtain ⟨rfl, _⟩ := EStateM.Result.error.inj h
      exact Stack.classed_of_popMany hp

theorem raises_store (offset size : Nat) (value : ByteArray) :
    Raises Classed (store offset size value) := .modify _

theorem raises_popOutput : Raises Classed popOutput := by
  refine raises_pop.bind fun _ => raises_pop.bind fun _ => ?_
  exact (raises_region _ _).bind fun _ => Raises.get.bind fun _ => .pure _

theorem raises_copyIn (source : ByteArray) (dest offset size : Word) :
    Raises Classed (copyIn source dest offset size) := by
  refine (raises_region _ _).bind fun _ => (raises_charge _).bind fun _ => ?_
  exact raises_store _ _ _

theorem raises_storeAt (offset size : Word) (n : Nat) (value : ByteArray) :
    Raises Classed (do let (offset, _) ← region offset size; store offset n value : FrameM Unit) :=
  (raises_region _ _).bind fun _ => raises_store _ _ _

theorem raises_jumpTo (dest : Word) : Raises Classed (jumpTo dest) :=
  Raises.get.bind fun _ => .ite (.modify _) (.throw (by decide))

theorem raises_copyWithin : Raises Classed copyWithin := by
  refine raises_pop.bind fun _ => raises_pop.bind fun _ => raises_pop.bind fun _ => ?_
  refine (raises_region _ _).bind fun _ => (raises_region _ _).bind fun _ => ?_
  exact (raises_charge _).bind fun _ => .modify _

/-- Call data and code may be read past their end. -/
theorem raises_copyFrom {source : CopySource} (other : source ≠ .returnData) :
    Raises Classed (copyFrom source) := by
  refine raises_pop.bind fun _ => raises_pop.bind fun _ => raises_pop.bind fun _ => ?_
  refine Raises.get.bind fun f => ?_
  rw [if_neg fun overrun => other overrun.1]
  exact raises_copyIn _ _ _ _

/-- Every operation on the frame but copying return data fails with classed faults. -/
theorem raises_perform (env : Environment) {op : FrameOp} (other : op ≠ .copy .returnData) :
    Raises Classed (perform env op) := by
  cases op with
  | unary f => exact raises_pop.bind fun _ => raises_push _
  | binary f => exact raises_pop.bind fun _ => raises_pop.bind fun _ => raises_push _
  | ternary f =>
      refine raises_pop.bind fun _ => raises_pop.bind fun _ => raises_pop.bind fun _ => ?_
      exact raises_push _
  | exp =>
      refine raises_pop.bind fun _ => raises_pop.bind fun _ => ?_
      exact (raises_charge _).bind fun _ => raises_push _
  | keccak =>
      refine raises_pop.bind fun _ => raises_pop.bind fun _ => (raises_region _ _).bind fun _ => ?_
      exact (raises_charge _).bind fun _ => Raises.get.bind fun _ => raises_push _
  | read r => exact Raises.get.bind fun _ => raises_push _
  | callDataLoad => exact raises_pop.bind fun _ => Raises.get.bind fun _ => raises_push _
  | blockHash => exact raises_pop.bind fun _ => raises_push _
  | blobHash => exact raises_pop.bind fun _ => raises_push _
  | copy source => exact raises_copyFrom fun same => other (same ▸ rfl)
  | pop => exact raises_pop.bind fun _ => .pure _
  | loadWord =>
      refine raises_pop.bind fun _ => (raises_region _ _).bind fun _ => ?_
      exact Raises.get.bind fun _ => raises_push _
  | storeWord =>
      exact raises_pop.bind fun _ => raises_pop.bind fun value =>
        raises_storeAt _ _ _ (Bytes.ofWord value.toNat)
  | storeByte =>
      exact raises_pop.bind fun _ => raises_pop.bind fun value =>
        raises_storeAt _ _ _ (Bytes.ofNumber 1 value.toNat)
  | copyMemory => exact raises_copyWithin
  | jump => exact raises_pop.bind fun _ => raises_jumpTo _
  | jumpIf =>
      exact raises_pop.bind fun _ => raises_pop.bind fun _ => .ite (raises_jumpTo _) (.pure _)
  | jumpDest => exact .pure _
  | push size =>
      exact Raises.get.bind fun f => (Raises.set _).bind fun _ => raises_push _
  | dup depth =>
      show Raises Classed (updateStack (·.dup (depth + 1)))
      exact raises_updateStack Stack.classed_of_dup
  | swap depth =>
      show Raises Classed (updateStack (·.swap (depth + 1)))
      exact raises_updateStack Stack.classed_of_swap

end FrameM

/-! ## The operations on accounts and logs -/

namespace Action

open Fault (Classed)

variable {env : Environment} {a b c : Active} {fault : Fault}

/-- Every fault of the action has the property, in every environment. -/
def Raises (P : Fault → Prop) (act : Action α) : Prop := ∀ env, EvmHarness.Raises P (act env)

namespace Raises

variable {P : Fault → Prop}

theorem pure (v : α) : Raises P (Pure.pure v : Action α) := fun _ => .pure v

theorem get : Raises P (MonadState.get : Action Active) := fun _ => .get

theorem throw {fault : Fault} (h : P fault) : Raises P (throw fault : Action α) := fun _ => .throw h

theorem bind {act : Action α} {f : α → Action β} (hact : Raises P act) (hf : ∀ v, Raises P (f v)) :
    Raises P (act >>= f) := fun env => (hact env).bind fun v => hf v env

theorem ite {c : Prop} [Decidable c] {x y : Action α} (hx : Raises P x) (hy : Raises P y) :
    Raises P (if c then x else y) := by
  split
  · exact hx
  · exact hy

end Raises

theorem raises_onFrame {P : Fault → Prop} {act : FrameM α} (h : EvmHarness.Raises P act) :
    Raises P (onFrame act) := fun _ _ _ _ hb => h (onFrame_eq_error.1 hb).1

theorem raises_pop : Raises Classed pop := raises_onFrame FrameM.raises_pop

theorem raises_push (w : Word) : Raises Classed (push w) := raises_onFrame (FrameM.raises_push w)

theorem raises_charge (amount : Nat) : Raises Classed (charge amount) :=
  raises_onFrame (FrameM.raises_charge amount)

theorem raises_region (offset size : Word) : Raises Classed (region offset size) :=
  raises_onFrame (FrameM.raises_region offset size)

theorem raises_modifyFrame (change : Frame → Frame) : Raises Classed (modifyFrame change) :=
  raises_onFrame (.modify change)

theorem raises_modifyWorld (change : World → World) : Raises Classed (modifyWorld change) :=
  fun _ => .modify _

theorem raises_touch (address : Address) : Raises Classed (touch address) :=
  Raises.get.bind fun _ => (raises_modifyWorld _).bind fun _ => .pure _

theorem raises_accessCost (address : Address) : Raises Classed (accessCost address) :=
  (raises_touch address).bind fun _ => .pure _

theorem raises_recordAt (address : Address) : Raises Classed (recordAt address) := by
  intro env a b fault h
  rw [recordAt_apply] at h
  repeat' split at h
  · exact absurd h nofun
  · obtain ⟨rfl, _⟩ := EStateM.Result.error.inj h
    exact nofun
  · exact absurd h nofun

theorem raises_visit (address : Address) : Raises Classed (visit address) :=
  (raises_accessCost address).bind fun _ => (raises_charge _).bind fun _ => raises_recordAt address

theorem raises_onStorage (act : Storage → α × Storage) : Raises Classed (onStorage act) := by
  intro env a b fault h
  rw [onStorage_apply] at h
  exact absurd h nofun

theorem raises_readAccount (r : AccountReading) : Raises Classed (readAccount r) :=
  raises_pop.bind fun _ => (raises_visit _).bind fun _ => (raises_push _).bind fun _ => .pure _

theorem raises_readSelfBalance : Raises Classed readSelfBalance :=
  Raises.get.bind fun _ => (raises_push _).bind fun _ => .pure _

theorem raises_copyAccountCode : Raises Classed copyAccountCode := by
  refine raises_pop.bind fun _ => raises_pop.bind fun _ => raises_pop.bind fun _ => ?_
  refine raises_pop.bind fun _ => (raises_visit _).bind fun _ => ?_
  exact (raises_onFrame (FrameM.raises_copyIn _ _ _ _)).bind fun _ => .pure _

theorem raises_loadSlot : Raises Classed loadSlot := by
  refine raises_pop.bind fun _ => (raises_onStorage _).bind fun _ => ?_
  refine (raises_onStorage _).bind fun _ => (raises_charge _).bind fun _ => ?_
  exact (raises_push _).bind fun _ => .pure _

theorem raises_loadTransient : Raises Classed loadTransient :=
  raises_pop.bind fun _ => (raises_onStorage _).bind fun _ => (raises_push _).bind fun _ => .pure _

/-! ## Operations that ask for a frame that may change something -/

/-- Where the frame may change something, a demand for that does not fail. -/
theorem classed_of_demandChangeable (changeable : a.frame.isStatic = false) {f : Unit → Action α}
    (hf : Raises Classed (f ())) (h : (demandChangeable >>= f) env a = .error fault c) :
    fault.Classed := by
  have allowed : demandChangeable env a = .ok () a := demandChangeable_eq_ok.2 ⟨changeable, rfl⟩
  rw [bind_of_eq_ok allowed] at h
  exact hf env h

theorem classed_of_storeSlot (changeable : a.frame.isStatic = false)
    (h : storeSlot env a = .error fault c) : fault.Classed := by
  refine classed_of_demandChangeable changeable ?_ h
  have written : Raises Classed (do
      let key ← pop
      let value ← pop
      charge (← onStorage (·.writeCost key value))
      onStorage fun storage => ((), storage.store key value)
      return .proceed : Action Next) := by
    refine raises_pop.bind fun _ => raises_pop.bind fun _ => (raises_onStorage _).bind fun _ => ?_
    exact (raises_charge _).bind fun _ => (raises_onStorage _).bind fun _ => .pure _
  exact Raises.get.bind fun _ => .ite ((Raises.throw nofun).bind fun _ => written) written

theorem classed_of_storeTransient (changeable : a.frame.isStatic = false)
    (h : storeTransient env a = .error fault c) : fault.Classed := by
  refine classed_of_demandChangeable changeable ?_ h
  refine raises_pop.bind fun _ => raises_pop.bind fun _ => ?_
  exact (raises_onStorage _).bind fun _ => .pure _

theorem classed_of_writeLog {topics : Nat} (changeable : a.frame.isStatic = false)
    (h : writeLog topics env a = .error fault c) : fault.Classed := by
  refine classed_of_demandChangeable changeable ?_ h
  refine raises_pop.bind fun _ => raises_pop.bind fun _ => ?_
  refine (raises_onFrame (FrameM.raises_popMany topics)).bind fun _ => ?_
  refine (raises_region _ _).bind fun _ => (raises_charge _).bind fun _ => ?_
  exact Raises.get.bind fun _ => (raises_modifyWorld _).bind fun _ => .pure _

theorem classed_of_selfDestruct (changeable : a.frame.isStatic = false)
    (h : selfDestruct env a = .error fault c) : fault.Classed := by
  rcases bind_eq_error.1 h with h | ⟨beneficiary, b, _, h⟩
  · refine classed_of_demandChangeable changeable ?_ h
    refine raises_pop.bind fun _ => (raises_touch _).bind fun _ => ?_
    exact (raises_charge _).bind fun _ => .pure _
  · exact absurd h nofun

/-! ## Calls and creations -/

theorem raises_clearReturnData : Raises Classed clearReturnData := raises_modifyFrame _

theorem raises_answer (gas : Nat) (w : Word) : Raises Classed (answer gas w) :=
  (raises_modifyFrame _).bind fun _ => (raises_push w).bind fun _ => .pure _

theorem CallRequest.raises_pop (scheme : CallScheme) :
    EvmHarness.Raises Classed (CallRequest.pop scheme) := by
  have rest : ∀ value gas target, EvmHarness.Raises Classed (do
      let inputOffset ← FrameM.pop
      let inputSize ← FrameM.pop
      let outputOffset ← FrameM.pop
      let outputSize ← FrameM.pop
      return { gas, target, value, inputOffset, inputSize, outputOffset, outputSize } :
      FrameM CallRequest) := by
    intro value gas target
    refine FrameM.raises_pop.bind fun _ => FrameM.raises_pop.bind fun _ => ?_
    exact FrameM.raises_pop.bind fun _ => FrameM.raises_pop.bind fun _ => .pure _
  refine FrameM.raises_pop.bind fun _ => FrameM.raises_pop.bind fun _ => ?_
  exact .ite (FrameM.raises_pop.bind fun _ => rest _ _ _)
    ((EvmHarness.Raises.pure _).bind fun _ => rest _ _ _)

theorem raises_payForCall (request : CallRequest) : Raises Classed (payForCall request) := by
  refine (raises_accessCost _).bind fun _ => (raises_charge _).bind fun _ => ?_
  refine (raises_recordAt _).bind fun record => ?_
  cases record with
  | some record => exact .pure _
  | none => exact .pure _

/-- Only a static frame may not send value by a call. -/
theorem classed_of_openCall {scheme : CallScheme} (changeable : a.frame.isStatic = false)
    (h : openCall scheme env a = .error fault c) : fault.Classed := by
  unfold openCall at h
  rcases bind_eq_error.1 h with h | ⟨request, b, popped, h⟩
  · exact raises_onFrame (CallRequest.raises_pop scheme) env h
  · have later : a.Runs b := (keeps_runs_onFrame (CallRequest.keeps_pop scheme)).of_eq_ok popped
    have allowed : ¬(scheme = .call ∧ b.frame.isStatic = true ∧ request.value ≠ 0) := by
      rintro ⟨_, static, _⟩
      rw [later.frame.isStatic, changeable] at static
      exact Bool.false_ne_true static
    rw [get_bind, if_neg allowed] at h
    have rest : Raises Classed (do
        let input ← region request.inputOffset request.inputSize
        let output ← region request.outputOffset request.outputSize
        let code ← payForCall request
        let forwarded ← forwardGas request.gas
        clearReturnData
        return { request, code, forwarded, input, output } : Action OpenedCall) := by
      refine (raises_region _ _).bind fun _ => (raises_region _ _).bind fun _ => ?_
      refine (raises_payForCall _).bind fun _ => Raises.bind ?_ fun _ => ?_
      · exact Raises.get.bind fun _ => (raises_charge _).bind fun _ => .pure _
      · exact raises_clearReturnData.bind fun _ => .pure _
    exact rest env h

theorem raises_startCall (scheme : CallScheme) (opened : OpenedCall) :
    Raises Classed (startCall scheme opened) := by
  intro env a c fault h
  rw [startCall_apply] at h
  repeat' split at h
  · exact raises_answer _ _ env h
  · exact raises_answer _ _ env h
  · exact absurd h nofun

theorem classed_of_call {scheme : CallScheme} (changeable : a.frame.isStatic = false)
    (h : call scheme env a = .error fault c) : fault.Classed := by
  rcases bind_eq_error.1 h with h | ⟨opened, b, _, h⟩
  · exact classed_of_openCall changeable h
  · exact raises_startCall scheme opened env h

theorem CreateRequest.raises_pop (salted : Bool) :
    EvmHarness.Raises Classed (CreateRequest.pop salted) := by
  have salts : EvmHarness.Raises Classed (some <$> FrameM.pop : FrameM (Option Word)) := by
    rw [map_eq_pure_bind]
    exact FrameM.raises_pop.bind fun _ => .pure _
  refine FrameM.raises_pop.bind fun _ => FrameM.raises_pop.bind fun _ => ?_
  refine FrameM.raises_pop.bind fun _ => .ite (salts.bind fun _ => .pure _) ?_
  exact (EvmHarness.Raises.pure _).bind fun _ => .pure _

theorem classed_of_openCreate {salted : Bool} (changeable : a.frame.isStatic = false)
    (h : openCreate salted env a = .error fault c) : fault.Classed := by
  refine classed_of_demandChangeable changeable ?_ h
  refine (raises_onFrame (CreateRequest.raises_pop salted)).bind fun _ => ?_
  refine (raises_region _ _).bind fun _ => (raises_charge _).bind fun _ => ?_
  exact Raises.get.bind fun _ => raises_clearReturnData.bind fun _ => .pure _

theorem raises_startCreate (request : CreateRequest) (code : ByteArray) :
    Raises Classed (startCreate request code) := by
  have refused : Raises Classed (do push 0; return .proceed : Action Next) :=
    (raises_push 0).bind fun _ => .pure _
  intro env a c fault h
  rw [startCreate_apply] at h
  split at h
  · rw [claimAddress_apply] at h
    split at h
    · exact refused env h
    · rw [startConstruction_apply] at h
      split at h
      · exact raises_answer _ _ env h
      · exact absurd h nofun
  · exact refused env h

theorem classed_of_create {salted : Bool} (changeable : a.frame.isStatic = false)
    (h : create salted env a = .error fault c) : fault.Classed := by
  rcases bind_eq_error.1 h with h | ⟨opened, b, _, h⟩
  · exact classed_of_openCreate changeable h
  · exact raises_startCreate opened.1 opened.2 env h

/-! ## The whole of an instruction -/

/-- In a frame that may change something, every operation but copying return data fails with
classed faults. -/
theorem classed_of_perform {op : Operation} (other : op ≠ .frame (.copy .returnData))
    (changeable : a.frame.isStatic = false) (h : perform op env a = .error fault c) :
    fault.Classed := by
  cases op with
  | stop => exact absurd h nofun
  | frame op =>
      rcases bind_eq_error.1 h with h | ⟨v, b, _, h⟩
      · exact absurd h nofun
      · rcases bind_eq_error.1 h with h | ⟨v, b, _, h⟩
        · have copies : op ≠ .copy .returnData := fun same => other (same ▸ rfl)
          exact raises_onFrame (FrameM.raises_perform _ copies) env h
        · exact absurd h nofun
  | selfBalance => exact raises_readSelfBalance env h
  | account r => exact raises_readAccount r env h
  | copyAccountCode => exact raises_copyAccountCode env h
  | loadSlot => exact raises_loadSlot env h
  | storeSlot => exact classed_of_storeSlot changeable h
  | loadTransient => exact raises_loadTransient env h
  | storeTransient => exact classed_of_storeTransient changeable h
  | log topics => exact classed_of_writeLog changeable h
  | create salted => exact classed_of_create changeable h
  | call scheme => exact classed_of_call changeable h
  | «return» =>
      rcases bind_eq_error.1 h with h | ⟨v, b, _, h⟩
      · exact raises_onFrame FrameM.raises_popOutput env h
      · exact absurd h nofun
  | revert =>
      rcases bind_eq_error.1 h with h | ⟨v, b, _, h⟩
      · exact raises_onFrame FrameM.raises_popOutput env h
      · obtain ⟨rfl, _⟩ := EStateM.Result.error.inj h
        exact nofun
  | invalid =>
      obtain ⟨rfl, _⟩ := EStateM.Result.error.inj h
      exact nofun
  | selfDestruct => exact classed_of_selfDestruct changeable h

/-- An instruction performs its operation, or fails before that with a classed fault. -/
theorem instruction_classed_or_performs (h : instruction env a = .error fault c) :
    fault.Classed ∨ ∃ op, a.Starts op ∧ perform op env (a.started op) = .error fault c := by
  obtain ⟨op, starts⟩ | ⟨fault', unstarted, fails⟩ := instruction_starts_or_fails env a
  · exact .inr ⟨op, starts, (instruction_of_starts env starts).symm.trans h⟩
  · rw [fails] at h
    obtain ⟨rfl, _⟩ := EStateM.Result.error.inj h
    left
    cases unstarted <;> exact nofun

end Action

end EvmHarness
