import EvmHarness.Proofs.LookUp
set_option autoImplicit false

/-!
# Words taken and words left

What an action does to the stack is said by two numbers: the words that it takes and those that it
leaves in their place.  They add up along a chain, and on a stack that holds the former and has room
for the latter no link of the chain finds a word missing or the stack full.  For every operation
they are those of its table entry, but that a callee, where one is entered, leaves the answer later.
-/

namespace EvmHarness

/-- Some words on top of the first stack have been taken, and others put in their place, which gives
the second. -/
structure Stack.Traded (inputs outputs : Nat) (s t : Stack) : Prop where
  size : t.size = s.size - inputs + outputs
  kept : t.words.drop outputs = s.words.drop inputs

/-- The fault is one of the two that a stack gives. -/
def Fault.OfStack : Fault → Prop
  | .stackUnderrun | .stackLimitExceeded => True
  | _ => False

namespace Stack.Traded

variable {i j o : Nat} {s t u : Stack}

theorem refl (s : Stack) : Traded 0 0 s s := ⟨rfl, rfl⟩

/-- What is taken in two steps is taken together. -/
theorem trans (h : Traded i 0 s t) (h' : Traded j o t u) : Traded (i + j) o s u := by
  have taken : t.words = s.words.drop i := h.kept
  refine ⟨?_, ?_⟩
  · rw [h'.size, h.size]
    omega
  · rw [h'.kept, taken, List.drop_drop]

theorem push (s : Stack) (w : Word) : Traded 0 1 s ⟨w :: s.words⟩ := ⟨rfl, rfl⟩

theorem drop (n : Nat) (s : Stack) : Traded n 0 s ⟨s.words.drop n⟩ :=
  ⟨List.length_drop, rfl⟩

end Stack.Traded

/-! ## Actions that trade words -/

section

variable {σ α β : Type} {stack : σ → Stack} {i j o : Nat}

/-- On a stack that holds the inputs and has room for the outputs, the action gives no fault of the
stack, and a value for which the inputs have been traded for the words that come with it. -/
def Trades (stack : σ → Stack) (inputs outputs : Nat) (left : α → Nat)
    (x : EStateM Fault σ α) : Prop :=
  ∀ s, inputs ≤ (stack s).size →
    (0 < outputs → (stack s).size - inputs + outputs ≤ Stack.limit) →
    match x s with
    | .ok v t => Stack.Traded inputs (left v) (stack s) (stack t)
    | .error fault _ => ¬ fault.OfStack

namespace Trades

variable {left : α → Nat} {left' : β → Nat}

theorem pure {v : α} (h : left v = 0) :
    Trades stack 0 o left (Pure.pure v : EStateM Fault σ α) := by
  intro s _ _
  show Stack.Traded 0 (left v) _ _
  rw [h]
  exact .refl _

theorem throw {fault : Fault} (h : ¬ fault.OfStack) :
    Trades stack i o left (throw fault : EStateM Fault σ α) := fun _ _ _ => h

/-- A chain takes what its links take, and leaves what the last one leaves. -/
theorem bind {x : EStateM Fault σ β} {f : β → EStateM Fault σ α}
    (hx : Trades stack i 0 (fun _ => 0) x) (hf : ∀ v, Trades stack j o left (f v)) :
    Trades stack (i + j) o left (x >>= f) := by
  intro s inputs room
  have first := hx s (by omega) nofun
  show match EStateM.bind x f s with
    | .ok v t => Stack.Traded (i + j) (left v) (stack s) (stack t)
    | .error fault _ => ¬ fault.OfStack
  unfold EStateM.bind
  cases h : x s with
  | error fault t =>
      rw [h] at first
      exact first
  | ok v t =>
      rw [h] at first
      have size : (stack t).size = (stack s).size - i := first.size
      have second := hf v t (by omega) (by omega)
      dsimp only
      cases h' : f v t with
      | error fault u =>
          rw [h'] at second
          exact second
      | ok v' u =>
          rw [h'] at second
          exact first.trans second

/-- A link that leaves the stack alone. -/
theorem free_bind {x : EStateM Fault σ β} {f : β → EStateM Fault σ α}
    (hx : Trades stack 0 0 (fun _ => 0) x) (hf : ∀ v, Trades stack i o left (f v)) :
    Trades stack i o left (x >>= f) := by
  have both := hx.bind hf
  rwa [Nat.zero_add] at both

/-- A last link that only names the value. -/
theorem map {x : EStateM Fault σ β} {g : β → α} {n : Nat} (hx : Trades stack i o (fun _ => n) x)
    (hg : ∀ v, left (g v) = n) : Trades stack i o left (x >>= fun v => Pure.pure (g v)) := by
  intro s inputs room
  have traded := hx s inputs room
  show match EStateM.bind x (fun v => Pure.pure (g v)) s with
    | .ok v t => Stack.Traded i (left v) (stack s) (stack t)
    | .error fault _ => ¬ fault.OfStack
  unfold EStateM.bind
  cases h : x s with
  | ok v t =>
      rw [h] at traded
      show Stack.Traded i (left (g v)) _ _
      rw [hg]
      exact traded
  | error fault t =>
      rw [h] at traded
      exact traded

theorem get : Trades stack 0 0 (fun _ => 0) (MonadState.get : EStateM Fault σ σ) :=
  fun s _ _ => .refl (stack s)

theorem modify {change : σ → σ} (h : ∀ s, stack (change s) = stack s) :
    Trades stack 0 0 (fun _ => 0) (modify change : EStateM Fault σ PUnit) := by
  intro s _ _
  show Stack.Traded 0 0 (stack s) (stack (change s))
  rw [h]
  exact .refl _

theorem ite {c : Prop} [Decidable c] {x y : EStateM Fault σ α} (hx : Trades stack i o left x)
    (hy : Trades stack i o left y) : Trades stack i o left (if c then x else y) := by
  split
  · exact hx
  · exact hy

end Trades

end

/-! ## Operations on the frame -/

namespace FrameM

/-- `Trades` for the stack of a frame. -/
abbrev Trades {α : Type} (inputs outputs : Nat) (left : α → Nat) (act : FrameM α) : Prop :=
  EvmHarness.Trades Frame.stack inputs outputs left act

variable {α : Type} {i o : Nat} {left : α → Nat}

theorem trades_pop : Trades 1 0 (fun _ => 0) pop := by
  intro f inputs _
  obtain ⟨w, rest, words⟩ : ∃ w rest, f.stack.words = w :: rest :=
    List.exists_cons_of_length_pos inputs
  have popped := pop_apply f
  rw [words] at popped
  rw [popped]
  have below : rest = f.stack.words.drop 1 := by rw [words, List.drop_one, List.tail_cons]
  subst below
  exact .drop 1 f.stack

theorem pop_bind {f : Word → FrameM α} (hf : ∀ w, Trades i o left (f w)) :
    Trades (i + 1) o left (pop >>= f) := by
  have both := trades_pop.bind hf
  rwa [Nat.add_comm] at both

theorem trades_push (w : Word) : Trades 0 1 (fun _ => 1) (push w) := by
  intro f _ room
  have room : f.stack.size < Stack.limit := room Nat.one_pos
  rw [push_apply, if_pos room]
  exact .push f.stack w

/-- A payment leaves the stack alone, and fails for the gas. -/
theorem trades_charge (amount : Nat) : Trades 0 0 (fun _ => 0) (charge amount) := by
  intro f _ _
  rw [charge_apply]
  by_cases covered : amount ≤ f.gas
  · rw [if_pos covered]
    exact .refl f.stack
  · rw [if_neg covered]
    exact nofun

theorem trades_region (offset size : Word) : Trades 0 0 (fun _ => 0) (region offset size) := by
  unfold region
  refine .ite (.pure rfl) ?_
  dsimp only
  refine .ite ?_ (.throw nofun)
  refine EvmHarness.Trades.get.free_bind fun f => (trades_charge _).free_bind fun _ => ?_
  exact EvmHarness.Trades.free_bind (.modify fun _ => rfl) fun _ => .pure rfl

theorem trades_store (offset size : Nat) (value : ByteArray) :
    Trades 0 0 (fun _ => 0) (store offset size value) := .modify fun _ => rfl

theorem trades_popMany (n : Nat) : Trades n 0 (fun _ => 0) (popMany n) := by
  intro f inputs _
  unfold popMany
  rw [EvmHarness.get_bind, Stack.popMany_of_le inputs]
  exact .drop n f.stack

theorem trades_popOutput : Trades 2 0 (fun _ => 0) popOutput :=
  pop_bind fun _ => pop_bind fun _ => (trades_region _ _).free_bind fun _ =>
    EvmHarness.Trades.get.free_bind fun _ => .pure rfl

theorem trades_copyIn (source : ByteArray) (dest offset size : Word) :
    Trades 0 0 (fun _ => 0) (copyIn source dest offset size) :=
  (trades_region _ _).free_bind fun _ => (trades_charge _).free_bind fun _ => trades_store _ _ _

theorem trades_copyFrom (source : CopySource) : Trades 3 0 (fun _ => 0) (copyFrom source) := by
  refine pop_bind fun _ => pop_bind fun _ => pop_bind fun _ => ?_
  refine EvmHarness.Trades.get.free_bind fun f => .ite ?_ (trades_copyIn _ _ _ _)
  exact EvmHarness.Trades.free_bind (.throw nofun) fun _ => trades_copyIn _ _ _ _

theorem trades_copyWithin : Trades 3 0 (fun _ => 0) copyWithin := by
  refine pop_bind fun _ => pop_bind fun _ => pop_bind fun _ => ?_
  refine (trades_region _ _).free_bind fun _ => (trades_region _ _).free_bind fun _ => ?_
  exact (trades_charge _).free_bind fun _ => .modify fun _ => rfl

theorem trades_jumpTo (dest : Word) : Trades 0 0 (fun _ => 0) (jumpTo dest) :=
  EvmHarness.Trades.get.free_bind fun _ => .ite (.modify fun _ => rfl) (.throw nofun)

theorem trades_updateStack {change : Stack → Except Fault Stack} (inputs outputs : Nat)
    (h : ∀ s, inputs ≤ s.size → (0 < outputs → s.size - inputs + outputs ≤ Stack.limit) →
      ∃ t, change s = .ok t ∧ Stack.Traded inputs outputs s t) :
    Trades inputs outputs (fun _ => outputs) (updateStack change) := by
  intro f enough room
  obtain ⟨t, changed, traded⟩ := h f.stack enough room
  unfold updateStack
  rw [EvmHarness.get_bind, changed]
  exact traded

theorem trades_dup (depth : Nat) :
    Trades (depth + 1) (depth + 2) (fun _ => depth + 2)
      (updateStack (·.dup (depth + 1)) : FrameM Unit) := by
  refine trades_updateStack _ _ fun s inputs room => ?_
  have deep : depth < s.words.length := inputs
  have room : s.size < Stack.limit := by
    have room := room (Nat.succ_pos _)
    omega
  refine ⟨⟨s.words[depth] :: s.words⟩, ?_, ?_, rfl⟩
  · rw [Stack.dup, Stack.peek, List.getElem?_eq_getElem deep]
    exact Stack.push_of_lt room _
  · show s.size + 1 = s.size - (depth + 1) + (depth + 2)
    omega

theorem trades_swap (depth : Nat) :
    Trades (depth + 2) (depth + 2) (fun _ => depth + 2)
      (updateStack (·.swap (depth + 1)) : FrameM Unit) := by
  refine trades_updateStack _ _ fun s inputs _ => ?_
  have deep : depth + 1 < s.words.length := inputs
  have top : 0 < s.words.length := Nat.lt_of_le_of_lt (Nat.zero_le _) deep
  refine ⟨⟨(s.words.set (depth + 1) s.words[0]).set 0 s.words[depth + 1]⟩, ?_, ?_, ?_⟩
  · rw [Stack.swap, List.getElem?_eq_getElem deep, List.getElem?_eq_getElem top]
  · show List.length _ = s.size - (depth + 2) + (depth + 2)
    rw [List.length_set, List.length_set, Nat.sub_add_cancel inputs]
    rfl
  · -- both of the words that change are among those that are counted as taken
    show List.drop (depth + 2) _ = _
    rw [List.drop_set_of_lt (Nat.succ_pos _), List.drop_set_of_lt (Nat.lt_succ_self _)]

/-- An operation on the frame trades as its table entry says. -/
theorem trades_perform (env : Environment) (op : FrameOp) :
    Trades op.info.inputs op.info.outputs (fun _ => op.info.outputs) (perform env op) := by
  have get : Trades 0 0 (fun _ => 0) (MonadState.get : FrameM Frame) := EvmHarness.Trades.get
  cases op with
  | unary f => exact pop_bind fun _ => trades_push _
  | binary f => exact pop_bind fun _ => pop_bind fun _ => trades_push _
  | ternary f => exact pop_bind fun _ => pop_bind fun _ => pop_bind fun _ => trades_push _
  | exp =>
      exact pop_bind fun _ => pop_bind fun _ => (trades_charge _).free_bind fun _ => trades_push _
  | keccak =>
      refine pop_bind fun _ => pop_bind fun _ => (trades_region _ _).free_bind fun _ => ?_
      exact (trades_charge _).free_bind fun _ => get.free_bind fun _ => trades_push _
  | read r => exact get.free_bind fun _ => trades_push _
  | callDataLoad => exact pop_bind fun _ => get.free_bind fun _ => trades_push _
  | blockHash => exact pop_bind fun _ => trades_push _
  | blobHash => exact pop_bind fun _ => trades_push _
  | copy source => exact trades_copyFrom source
  | pop => exact pop_bind fun _ => .pure rfl
  | loadWord =>
      refine pop_bind fun _ => (trades_region _ _).free_bind fun _ => ?_
      exact get.free_bind fun _ => trades_push _
  | storeWord =>
      exact pop_bind fun _ => pop_bind fun _ => (trades_region _ _).free_bind fun _ =>
        trades_store _ _ _
  | storeByte =>
      exact pop_bind fun _ => pop_bind fun _ => (trades_region _ _).free_bind fun _ =>
        trades_store _ _ _
  | copyMemory => exact trades_copyWithin
  | jump => exact pop_bind fun _ => trades_jumpTo _
  | jumpIf =>
      exact pop_bind fun _ => pop_bind fun _ => .ite (trades_jumpTo _) (.pure rfl)
  | jumpDest => exact .pure rfl
  | push size =>
      intro f inputs room
      rw [perform, EvmHarness.get_bind, EvmHarness.set_bind]
      exact trades_push _ { f with pc := f.pc + size } inputs room
  | dup depth => exact trades_dup depth
  | swap depth => exact trades_swap depth

end FrameM

/-- The words that an operation has left on the stack when it gives its value: none yet where it
enters a callee. -/
def Next.left (outputs : Nat) : Next → Nat
  | .enter _ _ _ => 0
  | _ => outputs

/-! ## Operations on accounts and logs -/

namespace Action

/-- `Trades` for the stack of the running frame, in every environment. -/
def Trades {α : Type} (inputs outputs : Nat) (left : α → Nat) (act : Action α) : Prop :=
  ∀ env, EvmHarness.Trades (fun a : Active => a.frame.stack) inputs outputs left (act env)

variable {α β : Type} {i j o : Nat} {left : α → Nat}

namespace Trades

theorem pure {v : α} (h : left v = 0) : Trades 0 o left (Pure.pure v : Action α) := fun _ => .pure h

theorem throw {fault : Fault} (h : ¬ fault.OfStack) : Trades i o left (throw fault : Action α) :=
  fun _ => .throw h

theorem get : Trades 0 0 (fun _ => 0) (MonadState.get : Action Active) := fun _ => .get

theorem bind {act : Action β} {f : β → Action α} (hact : Trades i 0 (fun _ => 0) act)
    (hf : ∀ v, Trades j o left (f v)) : Trades (i + j) o left (act >>= f) := fun env =>
  (hact env).bind fun v => hf v env

theorem free_bind {act : Action β} {f : β → Action α} (hact : Trades 0 0 (fun _ => 0) act)
    (hf : ∀ v, Trades i o left (f v)) : Trades i o left (act >>= f) := fun env =>
  (hact env).free_bind fun v => hf v env

theorem map {act : Action β} {g : β → α} {n : Nat} (hact : Trades i o (fun _ => n) act)
    (hg : ∀ v, left (g v) = n) : Trades i o left (act >>= fun v => Pure.pure (g v)) := fun env =>
  (hact env).map hg

theorem ite {c : Prop} [Decidable c] {x y : Action α} (hx : Trades i o left x)
    (hy : Trades i o left y) : Trades i o left (if c then x else y) := by
  split
  · exact hx
  · exact hy

end Trades

theorem trades_onFrame {act : FrameM α} (h : FrameM.Trades i o left act) :
    Trades i o left (onFrame act) := by
  rintro env ⟨f, w⟩ inputs room
  have traded := h f inputs room
  rw [onFrame_apply]
  cases hf : act f with
  | ok v g =>
      rw [hf] at traded
      exact traded
  | error fault g =>
      rw [hf] at traded
      exact traded

theorem pop_bind {f : Word → Action α} (hf : ∀ w, Trades i o left (f w)) :
    Trades (i + 1) o left (pop >>= f) := by
  have both := (trades_onFrame FrameM.trades_pop).bind hf
  rwa [Nat.add_comm] at both

/-- An operation that ends with a word on the stack. -/
theorem push_proceed (w : Word) :
    Trades 0 1 (Next.left 1) (do push w; return .proceed : Action Next) :=
  (trades_onFrame (FrameM.trades_push w)).map fun _ => rfl

theorem trades_charge (amount : Nat) : Trades 0 0 (fun _ => 0) (charge amount) :=
  trades_onFrame (FrameM.trades_charge amount)

theorem trades_region (offset size : Word) : Trades 0 0 (fun _ => 0) (region offset size) :=
  trades_onFrame (FrameM.trades_region offset size)

theorem trades_modifyWorld (change : World → World) :
    Trades 0 0 (fun _ => 0) (modifyWorld change) := fun _ => .modify fun _ => rfl

theorem trades_clearReturnData : Trades 0 0 (fun _ => 0) clearReturnData :=
  trades_onFrame (.modify fun _ => rfl)

theorem trades_demandChangeable : Trades 0 0 (fun _ => 0) demandChangeable :=
  Trades.get.free_bind fun _ => .ite (.throw nofun) (.pure rfl)

theorem trades_touch (address : Address) : Trades 0 0 (fun _ => 0) (touch address) :=
  Trades.get.free_bind fun _ => (trades_modifyWorld _).free_bind fun _ => .pure rfl

theorem trades_accessCost (address : Address) : Trades 0 0 (fun _ => 0) (accessCost address) :=
  (trades_touch address).free_bind fun _ => .pure rfl

theorem trades_recordAt (address : Address) : Trades 0 0 (fun _ => 0) (recordAt address) := by
  intro env a _ _
  rw [recordAt_apply]
  cases a.world.accounts[address]? with
  | some record => exact .refl a.frame.stack
  | none =>
      cases env.setting.strict with
      | true => exact nofun
      | false => exact .refl a.frame.stack

theorem trades_visit (address : Address) : Trades 0 0 (fun _ => 0) (visit address) :=
  (trades_accessCost address).free_bind fun _ => (trades_charge _).free_bind fun _ =>
    trades_recordAt address

theorem trades_onStorage {γ : Type} (act : Storage → γ × Storage) :
    Trades 0 0 (fun _ => 0) (onStorage act) := by
  intro env a _ _
  rw [onStorage_apply]
  exact .refl a.frame.stack

theorem trades_readAccount (r : AccountReading) :
    Trades 1 1 (Next.left 1) (readAccount r) :=
  pop_bind fun _ => (trades_visit _).free_bind fun _ => push_proceed _

theorem trades_readSelfBalance : Trades 0 1 (Next.left 1) readSelfBalance :=
  Trades.get.free_bind fun _ => push_proceed _

theorem trades_copyAccountCode : Trades 4 0 (Next.left 0) copyAccountCode := by
  refine pop_bind fun _ => pop_bind fun _ => pop_bind fun _ => pop_bind fun _ => ?_
  exact (trades_visit _).free_bind fun _ => (trades_onFrame (FrameM.trades_copyIn _ _ _ _)).map
    fun _ => rfl

theorem trades_loadSlot : Trades 1 1 (Next.left 1) loadSlot := by
  refine pop_bind fun _ => (trades_onStorage _).free_bind fun _ => ?_
  exact (trades_onStorage _).free_bind fun _ => (trades_charge _).free_bind fun _ => push_proceed _

theorem trades_storeSlot : Trades 2 0 (Next.left 0) storeSlot := by
  refine trades_demandChangeable.free_bind fun _ => Trades.get.free_bind fun _ => ?_
  have write : Trades 2 0 (Next.left 0) (do
      let key ← pop
      let value ← pop
      charge (← onStorage (·.writeCost key value))
      onStorage fun storage => ((), storage.store key value)
      return .proceed : Action Next) :=
    pop_bind fun _ => pop_bind fun _ => (trades_onStorage _).free_bind fun _ =>
      (trades_charge _).free_bind fun _ => (trades_onStorage _).map fun _ => rfl
  exact .ite (Trades.free_bind (.throw nofun) fun _ => write) write

theorem trades_loadTransient : Trades 1 1 (Next.left 1) loadTransient :=
  pop_bind fun _ => (trades_onStorage _).free_bind fun _ => push_proceed _

theorem trades_storeTransient : Trades 2 0 (Next.left 0) storeTransient :=
  trades_demandChangeable.free_bind fun _ => pop_bind fun _ => pop_bind fun _ =>
    (trades_onStorage _).map fun _ => rfl

theorem trades_writeLog (topics : Nat) : Trades (topics + 2) 0 (Next.left 0) (writeLog topics) := by
  refine trades_demandChangeable.free_bind fun _ => pop_bind fun _ => pop_bind fun _ => ?_
  refine (trades_onFrame (FrameM.trades_popMany topics)).bind (j := 0) fun _ => ?_
  refine (trades_region _ _).free_bind fun _ => (trades_charge _).free_bind fun _ => ?_
  exact Trades.get.free_bind fun _ => (trades_modifyWorld _).map fun _ => rfl

theorem trades_selfDestruct : Trades 1 0 (Next.left 0) selfDestruct := by
  have opens : Trades 1 0 (fun _ => 0) openSelfDestruct :=
    trades_demandChangeable.free_bind fun _ => pop_bind fun _ => (trades_touch _).free_bind fun _ =>
      (trades_charge _).free_bind fun _ => .pure rfl
  refine opens.bind (j := 0) fun _ => Trades.get.free_bind fun _ => ?_
  exact (trades_modifyWorld _).map fun _ => rfl

/-! ## Calls and creations -/

theorem trades_answer (gas : Nat) (w : Word) : Trades 0 1 (Next.left 1) (answer gas w) :=
  Trades.free_bind (trades_onFrame (.modify fun _ => rfl)) fun _ => push_proceed w

theorem trades_popCall (scheme : CallScheme) :
    FrameM.Trades (Operation.call scheme).info.inputs 0 (fun _ => 0) (CallRequest.pop scheme) := by
  intro f inputs _
  rw [CallRequest.pop_apply inputs]
  exact .drop _ f.stack

theorem trades_openCall (scheme : CallScheme) :
    Trades (Operation.call scheme).info.inputs 0 (fun _ => 0) (openCall scheme) := by
  refine (trades_onFrame (trades_popCall scheme)).bind (j := 0) fun request => ?_
  have pays : Trades 0 0 (fun _ => 0) (payForCall request) := by
    refine (trades_accessCost _).free_bind fun _ => (trades_charge _).free_bind fun _ => ?_
    refine (trades_recordAt _).free_bind fun record => ?_
    cases record with
    | some record => exact .pure rfl
    | none => exact .pure rfl
  have forwards : Trades 0 0 (fun _ => 0) (forwardGas request.gas) :=
    Trades.get.free_bind fun _ => (trades_charge _).free_bind fun _ => .pure rfl
  have rest : Trades 0 0 (fun _ => 0) (do
      let input ← region request.inputOffset request.inputSize
      let output ← region request.outputOffset request.outputSize
      let code ← payForCall request
      let forwarded ← forwardGas request.gas
      clearReturnData
      return { request, code, forwarded, input, output } : Action OpenedCall) :=
    (trades_region _ _).free_bind fun _ => (trades_region _ _).free_bind fun _ =>
      pays.free_bind fun _ => forwards.free_bind fun _ =>
        trades_clearReturnData.free_bind fun _ => .pure rfl
  exact Trades.get.free_bind fun _ => .ite (Trades.free_bind (.throw nofun) fun _ => rest) rest

theorem trades_startCall (scheme : CallScheme) (opened : OpenedCall) :
    Trades 0 1 (Next.left 1) (startCall scheme opened) := by
  intro env a inputs room
  rw [startCall_apply]
  cases callTransfer? scheme opened env a with
  | none => exact trades_answer _ _ env a inputs room
  | some moved =>
      dsimp only
      cases opened.code.isEmpty with
      | true =>
          exact trades_answer _ _ env { a with world := a.world.mapAccounts fun _ => moved }
            inputs room
      | false => exact .refl a.frame.stack

theorem trades_popCreate (salted : Bool) :
    FrameM.Trades (Operation.create salted).info.inputs 0 (fun _ => 0)
      (CreateRequest.pop salted) := by
  cases salted with
  | true =>
      refine FrameM.pop_bind fun _ => FrameM.pop_bind fun _ => FrameM.pop_bind fun _ => ?_
      have salt : FrameM.Trades 1 0 (fun _ => 0) (some <$> FrameM.pop : FrameM (Option Word)) := by
        rw [map_eq_pure_bind]
        exact FrameM.pop_bind fun _ => .pure rfl
      exact salt.bind (j := 0) fun _ => .pure rfl
  | false =>
      refine FrameM.pop_bind fun _ => FrameM.pop_bind fun _ => FrameM.pop_bind fun _ => ?_
      exact EvmHarness.Trades.free_bind (.pure rfl) fun _ => .pure rfl

theorem trades_openCreate (salted : Bool) :
    Trades (Operation.create salted).info.inputs 0 (fun _ => 0) (openCreate salted) := by
  refine trades_demandChangeable.free_bind fun _ => ?_
  refine (trades_onFrame (trades_popCreate salted)).bind (j := 0) fun request => ?_
  refine (trades_region _ _).free_bind fun _ => (trades_charge _).free_bind fun _ => ?_
  exact Trades.get.free_bind fun _ => trades_clearReturnData.free_bind fun _ => .pure rfl

theorem trades_startConstruction (address : Address) (value : Word) (code : ByteArray) (gas : Nat) :
    Trades 0 1 (Next.left 1) (startConstruction address value code gas) := by
  intro env a inputs room
  rw [startConstruction_apply]
  cases (begun address code a).transfer? a.frame.account address value with
  | none => exact trades_answer _ _ env a inputs room
  | some moved => exact .refl a.frame.stack

theorem trades_claimAddress (address : Address) (value : Word) (code : ByteArray) :
    Trades 0 1 (Next.left 1) (claimAddress address value code) := by
  intro env a inputs room
  rw [claimAddress_apply]
  by_cases taken : (claimed address a).world.accounts[address]?.any Account.isTaken = true
  · rw [if_pos taken]
    exact push_proceed 0 env (claimed address a) inputs room
  · rw [if_neg taken]
    exact trades_startConstruction _ _ _ _ env (claimed address a) inputs room

theorem trades_startCreate (request : CreateRequest) (code : ByteArray) :
    Trades 0 1 (Next.left 1) (startCreate request code) := by
  intro env a inputs room
  rw [startCreate_apply]
  by_cases can : a.world.accounts.CanCreate a.frame.account request.value env.depth
  · rw [if_pos can]
    exact trades_claimAddress _ _ _ env a inputs room
  · rw [if_neg can]
    exact push_proceed 0 env a inputs room

/-! ## The whole of an operation -/

/-- Every operation trades as its table entry says. -/
theorem trades_perform (op : Operation) :
    Trades op.info.inputs op.info.outputs (Next.left op.info.outputs) (perform op) := by
  cases op with
  | stop => exact .pure rfl
  | frame op =>
      intro env
      have performed : Trades op.info.inputs op.info.outputs (Next.left op.info.outputs)
          (do onFrame (FrameM.perform env op); return .proceed : Action Next) :=
        (trades_onFrame (FrameM.trades_perform env op)).map fun _ => rfl
      exact performed env
  | selfBalance => exact trades_readSelfBalance
  | account r => exact trades_readAccount r
  | copyAccountCode => exact trades_copyAccountCode
  | loadSlot => exact trades_loadSlot
  | storeSlot => exact trades_storeSlot
  | loadTransient => exact trades_loadTransient
  | storeTransient => exact trades_storeTransient
  | log topics => exact trades_writeLog topics
  | create salted =>
      exact (trades_openCreate salted).bind (j := 0) fun _ => trades_startCreate _ _
  | call scheme => exact (trades_openCall scheme).bind (j := 0) fun _ => trades_startCall _ _
  | «return» => exact (trades_onFrame FrameM.trades_popOutput).map fun _ => rfl
  | revert =>
      exact (trades_onFrame FrameM.trades_popOutput).bind (j := 0) fun _ => .throw nofun
  | invalid => exact .throw nofun
  | selfDestruct => exact trades_selfDestruct

end Action

end EvmHarness
