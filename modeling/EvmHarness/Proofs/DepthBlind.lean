import EvmHarness.Proofs.InstructionRun
set_option autoImplicit false

/-!
# Instructions do not see how deep they run

An instruction is given the number of suspended frames, and it asks for it only where a call or a
creation may be one too many.  Below that limit it does the same at every depth: a fact that the
parts of an instruction hand on to the whole.
-/

namespace EvmHarness.Action

variable {α β : Type}

/-- The action does the same at all depths from which a callee can be entered. -/
def DepthBlind (act : Action α) : Prop :=
  ∀ ⦃setting : Setting⦄ ⦃d e : Nat⦄, d < callDepthLimit → e < callDepthLimit →
    act ⟨setting, d⟩ = act ⟨setting, e⟩

namespace DepthBlind

theorem pure (v : α) : DepthBlind (Pure.pure v : Action α) := fun _ _ _ _ _ => rfl

theorem throw (fault : Fault) : DepthBlind (throw fault : Action α) := fun _ _ _ _ _ => rfl

theorem get : DepthBlind (get : Action Active) := fun _ _ _ _ _ => rfl

/-- An action on the frame alone is given nothing else. -/
theorem onFrame (act : FrameM α) : DepthBlind (onFrame act) := fun _ _ _ _ _ => rfl

theorem modifyWorld (change : World → World) : DepthBlind (modifyWorld change) :=
  fun _ _ _ _ _ => rfl

theorem onStorage (act : Storage → α × Storage) : DepthBlind (onStorage act) :=
  fun _ _ _ _ _ => rfl

theorem bind {act : Action α} {f : α → Action β} (hact : DepthBlind act)
    (hf : ∀ v, DepthBlind (f v)) : DepthBlind (act >>= f) := by
  intro setting d e hd he
  have rest : (fun v => f v ⟨setting, d⟩) = fun v => f v ⟨setting, e⟩ :=
    funext fun v => hf v hd he
  funext a
  rw [bind_apply, bind_apply, hact hd he, rest]

theorem ite {c : Prop} [Decidable c] {x y : Action α} (hx : DepthBlind x) (hy : DepthBlind y) :
    DepthBlind (if c then x else y) := by
  split
  · exact hx
  · exact hy

end DepthBlind

/-! ## The parts of instructions -/

theorem blind_demandChangeable : DepthBlind demandChangeable :=
  DepthBlind.get.bind fun _ => .ite (.throw _) (.pure _)

theorem blind_touch (a : Address) : DepthBlind (touch a) :=
  DepthBlind.get.bind fun _ => (DepthBlind.modifyWorld _).bind fun _ => .pure _

theorem blind_accessCost (a : Address) : DepthBlind (accessCost a) :=
  (blind_touch a).bind fun _ => .pure _

/-- A look-up asks for the setting, which is the same at every depth. -/
theorem blind_recordAt (a : Address) : DepthBlind (recordAt a) := by
  intro setting d e _ _
  funext s
  rw [recordAt_apply, recordAt_apply]

theorem blind_visit (a : Address) : DepthBlind (visit a) :=
  (blind_accessCost a).bind fun _ => (DepthBlind.onFrame _).bind fun _ => blind_recordAt a

theorem blind_clearReturnData : DepthBlind clearReturnData := fun _ _ _ _ _ => rfl

/-! ## Operations on accounts and logs -/

theorem blind_readAccount (r : AccountReading) : DepthBlind (readAccount r) := by
  refine (DepthBlind.onFrame _).bind fun _ => (blind_visit _).bind fun _ => ?_
  exact (DepthBlind.onFrame _).bind fun _ => .pure _

theorem blind_copyAccountCode : DepthBlind copyAccountCode := by
  refine (DepthBlind.onFrame _).bind fun _ => (DepthBlind.onFrame _).bind fun _ => ?_
  refine (DepthBlind.onFrame _).bind fun _ => (DepthBlind.onFrame _).bind fun _ => ?_
  exact (blind_visit _).bind fun _ => (DepthBlind.onFrame _).bind fun _ => .pure _

theorem blind_storeSlot : DepthBlind storeSlot := by
  have write : DepthBlind (do
      let key ← pop
      let value ← pop
      charge (← onStorage (·.writeCost key value))
      onStorage fun storage => ((), storage.store key value)
      return .proceed : Action Next) := by
    refine (DepthBlind.onFrame _).bind fun _ => (DepthBlind.onFrame _).bind fun _ => ?_
    refine (DepthBlind.onStorage _).bind fun _ => (DepthBlind.onFrame _).bind fun _ => ?_
    exact (DepthBlind.onStorage _).bind fun _ => .pure _
  refine blind_demandChangeable.bind fun _ => DepthBlind.get.bind fun _ => ?_
  exact .ite ((DepthBlind.throw _).bind fun _ => write) write

theorem blind_storeTransient : DepthBlind storeTransient := by
  refine blind_demandChangeable.bind fun _ => (DepthBlind.onFrame _).bind fun _ => ?_
  exact (DepthBlind.onFrame _).bind fun _ => (DepthBlind.onStorage _).bind fun _ => .pure _

theorem blind_writeLog (topics : Nat) : DepthBlind (writeLog topics) := by
  refine blind_demandChangeable.bind fun _ => (DepthBlind.onFrame _).bind fun _ => ?_
  refine (DepthBlind.onFrame _).bind fun _ => (DepthBlind.onFrame _).bind fun _ => ?_
  refine (DepthBlind.onFrame _).bind fun _ => (DepthBlind.onFrame _).bind fun _ => ?_
  exact DepthBlind.get.bind fun _ => (DepthBlind.modifyWorld _).bind fun _ => .pure _

theorem blind_selfDestruct : DepthBlind selfDestruct := by
  have opens : DepthBlind openSelfDestruct := by
    refine blind_demandChangeable.bind fun _ => (DepthBlind.onFrame _).bind fun _ => ?_
    exact (blind_touch _).bind fun _ => (DepthBlind.onFrame _).bind fun _ => .pure _
  refine opens.bind fun _ => DepthBlind.get.bind fun _ => ?_
  exact (DepthBlind.modifyWorld _).bind fun _ => .pure _

/-! ## Calls and creations -/

theorem blind_payForCall (request : CallRequest) : DepthBlind (payForCall request) := by
  refine (blind_accessCost _).bind fun _ => (DepthBlind.onFrame _).bind fun _ => ?_
  refine (blind_recordAt _).bind fun record => ?_
  cases record with
  | some record => exact .pure _
  | none => exact .pure _

theorem blind_openCall (scheme : CallScheme) : DepthBlind (openCall scheme) := by
  have forwards : ∀ requested, DepthBlind (forwardGas requested) := fun _ =>
    DepthBlind.get.bind fun _ => (DepthBlind.onFrame _).bind fun _ => .pure _
  have rest : ∀ request : CallRequest, DepthBlind (do
      let input ← region request.inputOffset request.inputSize
      let output ← region request.outputOffset request.outputSize
      let code ← payForCall request
      let forwarded ← forwardGas request.gas
      clearReturnData
      return { request, code, forwarded, input, output } : Action OpenedCall) := by
    intro request
    refine (DepthBlind.onFrame _).bind fun _ => (DepthBlind.onFrame _).bind fun _ => ?_
    refine (blind_payForCall request).bind fun _ => (forwards _).bind fun _ => ?_
    exact blind_clearReturnData.bind fun _ => .pure _
  refine (DepthBlind.onFrame _).bind fun request => DepthBlind.get.bind fun _ => ?_
  exact .ite ((DepthBlind.throw _).bind fun _ => rest request) (rest request)

/-- Whether a call may go deeper is asked once the call is opened. -/
theorem blind_call (scheme : CallScheme) : DepthBlind (call scheme) := by
  refine (blind_openCall scheme).bind fun opened => ?_
  intro setting d e hd he
  funext b
  have transfers : callTransfer? scheme opened ⟨setting, d⟩ b =
      callTransfer? scheme opened ⟨setting, e⟩ b := by
    simp only [callTransfer?, hd, he, if_true]
  rw [startCall_apply, startCall_apply, transfers]
  rfl

theorem blind_openCreate (salted : Bool) : DepthBlind (openCreate salted) := by
  refine blind_demandChangeable.bind fun _ => (DepthBlind.onFrame _).bind fun _ => ?_
  refine (DepthBlind.onFrame _).bind fun _ => (DepthBlind.onFrame _).bind fun _ => ?_
  exact DepthBlind.get.bind fun _ => blind_clearReturnData.bind fun _ => .pure _

theorem blind_claimAddress (address : Address) (value : Word) (code : ByteArray) :
    DepthBlind (claimAddress address value code) := by
  have starts : ∀ gas, DepthBlind (startConstruction address value code gas) := by
    intro gas setting d e _ _
    funext b
    rw [startConstruction_apply, startConstruction_apply]
    rfl
  refine DepthBlind.get.bind fun _ => (DepthBlind.modifyWorld _).bind fun _ => ?_
  refine (blind_touch _).bind fun _ => DepthBlind.get.bind fun _ => ?_
  refine (DepthBlind.onFrame _).bind fun _ => DepthBlind.get.bind fun _ => ?_
  exact .ite ((DepthBlind.onFrame _).bind fun _ => .pure _) (starts _)

/-- Whether a creation may go deeper is asked once the creation is opened. -/
theorem blind_create (salted : Bool) : DepthBlind (create salted) := by
  refine (blind_openCreate salted).bind fun opened => ?_
  obtain ⟨request, code⟩ := opened
  intro setting d e hd he
  funext b
  have can : b.world.accounts.CanCreate b.frame.account request.value d ↔
      b.world.accounts.CanCreate b.frame.account request.value e := by
    simp only [Accounts.CanCreate, hd, he]
  show startCreate request code _ b = startCreate request code _ b
  rw [startCreate_apply, startCreate_apply, blind_claimAddress _ _ _ hd he]
  simp only [can]
  rfl

/-! ## The whole of an instruction -/

theorem blind_perform (op : Operation) : DepthBlind (perform op) := by
  cases op with
  | call scheme => exact blind_call scheme
  | create salted => exact blind_create salted
  | account r => exact blind_readAccount r
  | copyAccountCode => exact blind_copyAccountCode
  | storeSlot => exact blind_storeSlot
  | storeTransient => exact blind_storeTransient
  | log topics => exact blind_writeLog topics
  | selfDestruct => exact blind_selfDestruct
  | _ => exact fun _ _ _ _ _ => rfl

/-- Below the limit, an instruction does the same at every depth. -/
theorem blind_instruction : DepthBlind instruction := by
  refine (DepthBlind.onFrame _).bind fun opcode => ?_
  cases Operation.decode? opcode with
  | none => exact .throw _
  | some op => exact (DepthBlind.onFrame _).bind fun _ => blind_perform op

end EvmHarness.Action
