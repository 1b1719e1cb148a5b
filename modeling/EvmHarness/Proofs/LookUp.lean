import EvmHarness.Proofs.FaultRun
set_option autoImplicit false

/-!
# Up to the look-up of an account

An operation on an account that the stack names checks the stack, the frame, the memory and the gas
before it looks the account up.  What each check asks is said here of the state in front of the
instruction.  Where all of them pass and a record is demanded that is not there, the look-up fails,
and it names the address.
-/

namespace EvmHarness

/-- What a call reads off the words of a stack that has enough of them. -/
def CallRequest.ofWords (scheme : CallScheme) (words : List Word) : CallRequest :=
  let rest := words.drop (if scheme.carriesValue then 3 else 2)
  { gas := words.getD 0 0
    target := Address.ofWord (words.getD 1 0)
    value := if scheme.carriesValue then words.getD 2 0 else 0
    inputOffset := rest.getD 0 0
    inputSize := rest.getD 1 0
    outputOffset := rest.getD 2 0
    outputSize := rest.getD 3 0 }

/-- The address that an operation on an account is given on the stack. -/
def Operation.named? : Operation → List Word → Option Address
  | .account _, w :: _ => some (.ofWord w)
  | .copyAccountCode, w :: _ => some (.ofWord w)
  | .call _, _ :: w :: _ => some (.ofWord w)
  | .selfDestruct, w :: _ => some (.ofWord w)
  | _, _ => none

namespace Active

/-- The request of the call that comes next. -/
def request (a : Active) (scheme : CallScheme) : CallRequest :=
  .ofWords scheme a.frame.stack.words

/-- The price of touching an address, given that of a first touch. -/
def touchPrice (a : Active) (address : Address) (cold : Nat) : Nat :=
  if a.world.accessed.contains address then 0 else cold

/-- The price of making the memory of a call usable. -/
def callMemoryPrice (a : Active) (request : CallRequest) : Nat :=
  let grown := a.frame.memory.extend request.inputOffset.toNat request.inputSize.toNat
  a.frame.memory.expansionCost request.inputOffset.toNat request.inputSize.toNat +
    grown.expansionCost request.outputOffset.toNat request.outputSize.toNat

/-- What is paid on top of the fixed price until an account is looked up. -/
def lookUpPrice (a : Active) (address : Address) : Operation → Nat
  | .call scheme =>
    a.callMemoryPrice (a.request scheme) + (a.touchPrice address Gas.coldAccount +
      if (a.request scheme).value = 0 then 0 else Gas.valueTransfer)
  | .selfDestruct => a.touchPrice address Gas.coldBeneficiary
  | _ => a.touchPrice address Gas.coldAccount

/-- The range is not empty and reaches past the memory that can be addressed. -/
def Unaddressable (offset size : Word) : Prop :=
  size ≠ 0 ∧ Memory.addressLimit < offset.toNat + size.toNat

/-- A check of the stack, the frame, the memory or the gas that an operation fails before it looks
an account up, and the fault of that. -/
inductive FailsFirst (a : Active) (op : Operation) (address : Address) : Fault → Prop where
  | underrun (h : a.frame.stack.size < op.info.inputs) : FailsFirst a op address .stackUnderrun
  | overflow (h : Stack.limit < a.frame.stack.size - op.info.inputs + op.info.outputs) :
      FailsFirst a op address .stackLimitExceeded
  /-- a static frame destroys nothing, and sends no value by a plain call -/
  | static (h : a.frame.isStatic = true)
      (changes : op = .selfDestruct ∨ op = .call .call ∧ (a.request .call).value ≠ 0) :
      FailsFirst a op address .stateChangeWhileStatic
  | memory {scheme : CallScheme} (hop : op = .call scheme)
      (h : Unaddressable (a.request scheme).inputOffset (a.request scheme).inputSize ∨
        Unaddressable (a.request scheme).outputOffset (a.request scheme).outputSize) :
      FailsFirst a op address .memoryOverflow
  | gas {available needed : Nat} (h : a.frame.gas < op.info.price + a.lookUpPrice address op) :
      FailsFirst a op address (.outOfGas available needed)

/-- The fault of a look-up that finds no record, or of a check before it. -/
def LookUpFault (a : Active) (op : Operation) (address : Address) (fault : Fault) : Prop :=
  fault = .unknownAccount address ∨ a.FailsFirst op address fault

/-- Where the fixed price is paid, the gas that is left has to cover the rest. -/
theorem Starts.failsFirst_of_short {a : Active} {op : Operation} {address : Address}
    (starts : a.Starts op) (short : (a.started op).frame.gas < a.lookUpPrice address op)
    (available needed : Nat) : a.FailsFirst op address (.outOfGas available needed) := by
  have paid := starts.gas
  exact .gas (by omega)

end Active

/-! ## The parts of an opened operation -/

/-- A call takes its request off a stack that has enough words. -/
theorem CallRequest.pop_apply {scheme : CallScheme} {f : Frame}
    (inputs : (Operation.call scheme).info.inputs ≤ f.stack.size) :
    CallRequest.pop scheme f = .ok (.ofWords scheme f.stack.words)
      { f with stack := ⟨f.stack.words.drop (Operation.call scheme).info.inputs⟩ } := by
  rcases f with ⟨_, _, _, _, _, ⟨words⟩, _, _, _, _, _, _, _⟩
  cases scheme with
  | call =>
      match words, inputs with
      | _ :: _ :: _ :: _ :: _ :: _ :: _ :: _, _ => rfl
  | callCode =>
      match words, inputs with
      | _ :: _ :: _ :: _ :: _ :: _ :: _ :: _, _ => rfl
  | delegate =>
      match words, inputs with
      | _ :: _ :: _ :: _ :: _ :: _ :: _, _ => rfl
  | static =>
      match words, inputs with
      | _ :: _ :: _ :: _ :: _ :: _ :: _, _ => rfl

/-- The target of a call is the address that it names. -/
theorem target_of_named {a : Active} {scheme : CallScheme} {address : Address}
    (named : (Operation.call scheme).named? a.frame.stack.words = some address) :
    (a.request scheme).target = address := by
  unfold Active.request
  match hw : a.frame.stack.words with
  | [] => simp [hw, Operation.named?] at named
  | [_] => simp [hw, Operation.named?] at named
  | _ :: w :: _ =>
      rw [hw] at named
      exact Option.some.inj named

namespace Action

variable {env : Environment} {a b : Active} {address : Address}

theorem pop_apply {w : Word} {rest : List Word} (words : a.frame.stack.words = w :: rest)
    (env : Environment) :
    pop env a = .ok w { a with frame := { a.frame with stack := ⟨rest⟩ } } := by
  refine onFrame_of_eq_ok ?_ env
  rw [FrameM.pop_apply, words]

theorem charge_apply (amount : Nat) (env : Environment) (a : Active) :
    charge amount env a =
      if amount ≤ a.frame.gas then
        .ok () { a with frame := { a.frame with gas := a.frame.gas - amount } }
      else .error (.outOfGas a.frame.gas amount) a := by
  have charged := FrameM.charge_apply amount a.frame
  split
  · rename_i covered
    rw [if_pos covered] at charged
    exact onFrame_of_eq_ok charged env
  · rename_i short
    rw [if_neg short] at charged
    exact onFrame_of_eq_error charged env

theorem accessCost_apply (address : Address) (env : Environment) (a : Active) :
    accessCost address env a =
      .ok (a.touchPrice address Gas.coldAccount) { a with world := a.world.touch address } := by
  have touched : touch address env a =
      .ok (!a.world.accessed.contains address) { a with world := a.world.touch address } := rfl
  rw [accessCost, bind_of_eq_ok touched]
  unfold Active.touchPrice
  cases a.world.accessed.contains address <;> rfl

/-! ## Failing without a trace -/

/-- The action fails with a fault that has the property, and changes no record. -/
def Fails {α : Type} (P : Fault → Prop) (act : Action α) (env : Environment) (a : Active) : Prop :=
  ∃ fault b, act env a = .error fault b ∧ P fault ∧ b.world.accounts = a.world.accounts

namespace Fails

variable {α β : Type} {P : Fault → Prop} {act : Action α} {f : α → Action β} {v : α}

theorem mono {Q : Fault → Prop} (h : Fails P act env a) (le : ∀ fault, P fault → Q fault) :
    Fails Q act env a := by
  obtain ⟨fault, b, failed, hp, same⟩ := h
  exact ⟨fault, b, failed, le fault hp, same⟩

theorem bind (h : Fails P act env a) : Fails P (act >>= f) env a := by
  obtain ⟨fault, b, failed, rest⟩ := h
  exact ⟨fault, b, bind_of_eq_error failed f, rest⟩

/-- After a link that changes no record, a chain fails where the rest of it does. -/
theorem of_eq_ok (h : act env a = .ok v b) (same : b.world.accounts = a.world.accounts)
    (hf : Fails P (f v) env b) : Fails P (act >>= f) env a := by
  obtain ⟨fault, c, failed, hp, kept⟩ := hf
  exact ⟨fault, c, (bind_of_eq_ok h f).trans failed, hp, kept.trans same⟩

theorem get {f : Active → Action β} (h : Fails P (f a) env a) :
    Fails P (MonadState.get >>= f) env a := h

theorem of_eq_error {fault : Fault} (h : act env a = .error fault b) (hp : P fault)
    (same : b.world.accounts = a.world.accounts) : Fails P act env a := ⟨fault, b, h, hp, same⟩

theorem ite {c : Prop} [Decidable c] {x y : Action α} (hx : c → Fails P x env a)
    (hy : Fails P y env a) : Fails P (if c then x else y) env a := by
  split
  · rename_i hc
    exact hx hc
  · exact hy

theorem pop {w : Word} {rest : List Word} {f : Word → Action β}
    (words : a.frame.stack.words = w :: rest)
    (h : Fails P (f w) env { a with frame := { a.frame with stack := ⟨rest⟩ } }) :
    Fails P (Action.pop >>= f) env a := of_eq_ok (pop_apply words env) rfl h

/-- A price is paid or fails the action, and so does what comes after it. -/
theorem charge {amount : Nat} {f : Unit → Action β}
    (gas : a.frame.gas < amount → ∀ available needed, P (.outOfGas available needed))
    (h : amount ≤ a.frame.gas → Fails P (f ())
      env { a with frame := { a.frame with gas := a.frame.gas - amount } }) :
    Fails P (Action.charge amount >>= f) env a := by
  have charged := charge_apply amount env a
  by_cases covered : amount ≤ a.frame.gas
  · exact of_eq_ok (charged.trans (if_pos covered)) rfl (h covered)
  · have failed := charged.trans (if_neg covered)
    exact bind (of_eq_error failed (gas (Nat.lt_of_not_le covered) _ _) rfl)

/-- A range is made usable or fails the action, and so does what comes after it. -/
theorem region {offset size : Word} {f : Nat × Nat → Action β}
    (overflow : Active.Unaddressable offset size → P .memoryOverflow)
    (gas : a.frame.gas < a.frame.memory.expansionCost offset.toNat size.toNat →
      ∀ available needed, P (.outOfGas available needed))
    (h : a.frame.memory.expansionCost offset.toNat size.toNat ≤ a.frame.gas → ∀ range,
      Fails P (f range) env { a with frame := { a.frame with
        gas := a.frame.gas - a.frame.memory.expansionCost offset.toNat size.toNat
        memory := a.frame.memory.extend offset.toNat size.toNat } }) :
    Fails P (Action.region offset size >>= f) env a := by
  have made := FrameM.region_apply offset size a.frame
  by_cases empty : size = 0
  · subst empty
    have made := made.trans (if_pos rfl)
    exact of_eq_ok (onFrame_of_eq_ok made env) rfl (h (Nat.zero_le _) _)
  · have made := made.trans (if_neg empty)
    by_cases inside : offset.toNat + size.toNat ≤ Memory.addressLimit
    · have made := made.trans (if_pos inside)
      by_cases covered : a.frame.memory.expansionCost offset.toNat size.toNat ≤ a.frame.gas
      · have paid := made.trans (if_pos covered)
        exact of_eq_ok (onFrame_of_eq_ok paid env) rfl (h covered _)
      · have failed := made.trans (if_neg covered)
        have short := Nat.lt_of_not_le covered
        exact bind (of_eq_error (onFrame_of_eq_error failed env) (gas short _ _) rfl)
    · have failed := made.trans (if_neg inside)
      have outside := overflow ⟨empty, Nat.lt_of_not_le inside⟩
      exact bind (of_eq_error (onFrame_of_eq_error failed env) outside rfl)

/-- A record that is demanded and is not there fails the look-up. -/
theorem recordAt (strict : env.setting.strict = true)
    (missing : a.world.accounts[address]? = none) (unknown : P (.unknownAccount address)) :
    Fails P (Action.recordAt address) env a := by
  have looked := recordAt_apply address env a
  rw [missing] at looked
  exact of_eq_error (looked.trans (if_pos strict)) unknown rfl

/-- A visit pays for the touch, and fails at the look-up. -/
theorem visit (strict : env.setting.strict = true)
    (missing : a.world.accounts[address]? = none) (unknown : P (.unknownAccount address))
    (gas : a.frame.gas < a.touchPrice address Gas.coldAccount →
      ∀ available needed, P (.outOfGas available needed)) :
    Fails P (Action.visit address) env a := by
  refine of_eq_ok (accessCost_apply address env a) rfl (charge gas fun _ => ?_)
  exact recordAt strict missing unknown

end Fails

/-! ## The operations -/

/-- The operation takes the address that it names off the stack first. -/
theorem words_of_named {op : Operation} (h : (∃ r, op = .account r) ∨ op = .selfDestruct)
    (named : op.named? a.frame.stack.words = some address) :
    ∃ w rest, a.frame.stack.words = w :: rest ∧ Address.ofWord w = address := by
  cases hw : a.frame.stack.words with
  | nil =>
      rw [hw] at named
      obtain ⟨r, rfl⟩ | rfl := h <;> exact absurd named nofun
  | cons w rest =>
      rw [hw] at named
      obtain ⟨r, rfl⟩ | rfl := h <;> exact ⟨w, rest, rfl, Option.some.inj named⟩

theorem readAccount_fails {r : AccountReading} (starts : a.Starts (.account r))
    (named : (Operation.account r).named? a.frame.stack.words = some address)
    (strict : env.setting.strict = true) (missing : a.world.accounts[address]? = none) :
    Fails (a.LookUpFault (.account r) address) (readAccount r) env (a.started (.account r)) := by
  obtain ⟨w, rest, words, rfl⟩ := words_of_named (.inl ⟨r, rfl⟩) named
  refine .pop words (.bind ?_)
  exact .visit strict missing (.inl rfl) fun short _ _ =>
    .inr (starts.failsFirst_of_short short _ _)

theorem copyAccountCode_fails (starts : a.Starts .copyAccountCode)
    (named : Operation.copyAccountCode.named? a.frame.stack.words = some address)
    (strict : env.setting.strict = true) (missing : a.world.accounts[address]? = none) :
    Fails (a.LookUpFault .copyAccountCode address) copyAccountCode env
      (a.started .copyAccountCode) := by
  have inputs : 4 ≤ a.frame.stack.words.length := starts.inputs
  obtain ⟨w, dest, offset, size, rest, words⟩ :
      ∃ w dest offset size rest, a.frame.stack.words = w :: dest :: offset :: size :: rest := by
    match a.frame.stack.words, inputs with
    | w :: dest :: offset :: size :: rest, _ => exact ⟨w, dest, offset, size, rest, rfl⟩
  rw [words] at named
  obtain rfl := Option.some.inj named
  refine .pop words (.pop rfl (.pop rfl (.pop rfl (.bind ?_))))
  exact .visit strict missing (.inl rfl) fun short _ _ =>
    .inr (starts.failsFirst_of_short short _ _)

theorem payForCall_fails {P : Fault → Prop} {request : CallRequest}
    (strict : env.setting.strict = true) (missing : a.world.accounts[request.target]? = none)
    (unknown : P (.unknownAccount request.target))
    (gas : a.frame.gas < a.touchPrice request.target Gas.coldAccount +
        (if request.value = 0 then 0 else Gas.valueTransfer) →
      ∀ available needed, P (.outOfGas available needed)) :
    Fails P (payForCall request) env a := by
  refine .of_eq_ok (accessCost_apply request.target env a) rfl (.charge gas fun _ => ?_)
  exact .bind (.recordAt strict missing unknown)

/-- A call checks the frame, then its memory, and then pays, before it looks its target up. -/
theorem openCall_fails {scheme : CallScheme} (starts : a.Starts (.call scheme))
    (named : (Operation.call scheme).named? a.frame.stack.words = some address)
    (strict : env.setting.strict = true) (missing : a.world.accounts[address]? = none) :
    Fails (a.LookUpFault (.call scheme) address) (openCall scheme) env
      (a.started (.call scheme)) := by
  obtain rfl := target_of_named named
  have popped := CallRequest.pop_apply (f := (a.started (.call scheme)).frame) starts.inputs
  have unpaid : (a.started (.call scheme)).frame.gas <
      a.lookUpPrice (a.request scheme).target (.call scheme) → ∀ available needed,
        a.LookUpFault (.call scheme) (a.request scheme).target (.outOfGas available needed) :=
    fun short _ _ => .inr (starts.failsFirst_of_short short _ _)
  refine .of_eq_ok (onFrame_of_eq_ok (a := a.started (.call scheme)) popped env) rfl (.get ?_)
  refine .ite (fun static => ?_) ?_
  · obtain ⟨rfl, isStatic, value⟩ := static
    exact .bind (.of_eq_error rfl (.inr (.static isStatic (.inr ⟨rfl, value⟩))) rfl)
  -- the input is paid for, then the output in the memory that the input has grown, then the rest
  refine .region (fun outside => .inr (.memory rfl (.inl outside))) (fun short => ?_) ?_
  · exact unpaid (Nat.lt_of_lt_of_le short
      (Nat.le_trans (Nat.le_add_right _ _) (Nat.le_add_right _ _)))
  intro input _
  refine .region (fun outside => .inr (.memory rfl (.inr outside))) (fun short => ?_) ?_
  · have short := (Nat.sub_lt_iff_lt_add' input).1 short
    exact unpaid (Nat.lt_of_lt_of_le short (Nat.le_add_right _ _))
  intro output _
  refine .bind (payForCall_fails strict missing (.inl rfl) fun short => ?_)
  have short := (Nat.sub_lt_iff_lt_add' input).1 ((Nat.sub_lt_iff_lt_add' output).1 short)
  exact unpaid (Nat.lt_of_lt_of_eq short (Nat.add_assoc _ _ _).symm)

/-- A self-destruction pays for touching its beneficiary and looks nothing up. -/
theorem openSelfDestruct_apply {w : Word} {rest : List Word} (changeable : a.frame.isStatic = false)
    (words : a.frame.stack.words = w :: rest) (env : Environment) :
    openSelfDestruct env a =
      if a.touchPrice (.ofWord w) Gas.coldBeneficiary ≤ a.frame.gas then
        .ok (.ofWord w)
          { frame := { a.frame with
              stack := ⟨rest⟩, gas := a.frame.gas - a.touchPrice (.ofWord w) Gas.coldBeneficiary }
            world := a.world.touch (.ofWord w) }
      else
        .error (.outOfGas a.frame.gas (a.touchPrice (.ofWord w) Gas.coldBeneficiary))
          { frame := { a.frame with stack := ⟨rest⟩ }, world := a.world.touch (.ofWord w) } := by
  have allowed : demandChangeable env a = .ok () a := demandChangeable_eq_ok.2 ⟨changeable, rfl⟩
  have touched : touch (.ofWord w) env { a with frame := { a.frame with stack := ⟨rest⟩ } } =
      .ok (!a.world.accessed.contains (.ofWord w))
        { frame := { a.frame with stack := ⟨rest⟩ }, world := a.world.touch (.ofWord w) } := rfl
  have price : (if (!a.world.accessed.contains (Address.ofWord w)) = true then Gas.coldBeneficiary
      else 0) = a.touchPrice (.ofWord w) Gas.coldBeneficiary := by
    unfold Active.touchPrice
    cases a.world.accessed.contains (Address.ofWord w) <;> rfl
  have charged := charge_apply (a.touchPrice (.ofWord w) Gas.coldBeneficiary) env
    { frame := { a.frame with stack := ⟨rest⟩ }, world := a.world.touch (.ofWord w) }
  rw [openSelfDestruct, bind_of_eq_ok allowed, bind_of_eq_ok (pop_apply words env)]
  dsimp only
  rw [bind_of_eq_ok touched, price]
  by_cases covered : a.touchPrice (.ofWord w) Gas.coldBeneficiary ≤ a.frame.gas
  · rw [if_pos covered]
    exact bind_of_eq_ok (charged.trans (if_pos covered)) _
  · rw [if_neg covered]
    exact bind_of_eq_error (charged.trans (if_neg covered)) _

/-- A self-destruction fails at a check, or sends the balance to the address whether or not there is
a record. -/
theorem selfDestruct_fails_or_destroys (env : Environment) (starts : a.Starts .selfDestruct)
    (named : Operation.selfDestruct.named? a.frame.stack.words = some address) :
    Fails (a.FailsFirst .selfDestruct address) selfDestruct env (a.started .selfDestruct) ∨
      ∃ b, selfDestruct env (a.started .selfDestruct) = .ok (.halt ByteArray.empty) b ∧
        b.world.accounts = a.world.accounts.destroy a.frame.account address := by
  obtain ⟨w, rest, words, rfl⟩ := words_of_named (.inr rfl) named
  cases static : a.frame.isStatic with
  | true =>
      left
      have refused : demandChangeable env (a.started .selfDestruct) =
          .error .stateChangeWhileStatic (a.started .selfDestruct) :=
        (demandChangeable_apply env _).trans (if_pos static)
      exact .bind (.bind (.of_eq_error refused (.static static (.inl rfl)) rfl))
  | false =>
      have opened := openSelfDestruct_apply (a := a.started .selfDestruct) static words env
      by_cases covered : a.touchPrice (.ofWord w) Gas.coldBeneficiary ≤
          (a.started .selfDestruct).frame.gas
      · exact .inr ⟨_, bind_of_eq_ok (opened.trans (if_pos covered)) _, rfl⟩
      · left
        have first := starts.failsFirst_of_short (Nat.lt_of_not_le covered)
        exact .bind (.of_eq_error (opened.trans (if_neg covered)) (first _ _) rfl)

/-! ## The whole of an instruction -/

variable {op : Operation}

/-- An operation starts unless the stack or its fixed price fails it. -/
theorem instruction_fails_or_starts (env : Environment) (hop : a.operation? = some op)
    (address : Address) : Fails (a.FailsFirst op address) instruction env a ∨ a.Starts op := by
  obtain ⟨op', starts⟩ | ⟨fault, unstarted, fails⟩ := instruction_starts_or_fails env a
  · obtain rfl := Option.some.inj (hop.symm.trans starts.operation)
    exact .inr starts
  · refine .inl (.of_eq_error fails ?_ rfl)
    cases unstarted with
    | undefined unknown => exact absurd (hop.symm.trans unknown) nofun
    | underrun hop' short =>
        obtain rfl := Option.some.inj (hop.symm.trans hop')
        exact .underrun short
    | overflow hop' room =>
        obtain rfl := Option.some.inj (hop.symm.trans hop')
        exact .overflow room
    | unpaid hop' short =>
        obtain rfl := Option.some.inj (hop.symm.trans hop')
        exact .gas (Nat.lt_of_lt_of_le short (Nat.le_add_right _ _))

/-- An instruction that names an address without a record, where a record is demanded, fails at a
check or at the look-up, if it looks the account up at all. -/
theorem instruction_fails_at_lookUp (hop : a.operation? = some op)
    (named : op.named? a.frame.stack.words = some address) (looks : op ≠ .selfDestruct)
    (strict : env.setting.strict = true) (missing : a.world.accounts[address]? = none) :
    Fails (a.LookUpFault op address) instruction env a := by
  obtain first | starts := instruction_fails_or_starts env hop address
  · exact first.mono fun _ => .inr
  · have performed := instruction_of_starts env starts
    have fails : Fails (a.LookUpFault op address) (perform op) env (a.started op) := by
      cases op with
      | account r => exact readAccount_fails starts named strict missing
      | copyAccountCode => exact copyAccountCode_fails starts named strict missing
      | call scheme => exact .bind (openCall_fails starts named strict missing)
      | selfDestruct => exact absurd rfl looks
      | _ => exact absurd named nofun
    obtain ⟨fault, b, failed, rest⟩ := fails
    exact ⟨fault, b, performed.trans failed, rest⟩

/-- A self-destruction fails at a check, or ends its frame and sends the balance to the address. -/
theorem instruction_fails_or_destroys (env : Environment)
    (hop : a.operation? = some .selfDestruct)
    (named : Operation.selfDestruct.named? a.frame.stack.words = some address) :
    Fails (a.FailsFirst .selfDestruct address) instruction env a ∨
      ∃ b, instruction env a = .ok (.halt ByteArray.empty) b ∧
        b.world.accounts = a.world.accounts.destroy a.frame.account address := by
  obtain first | starts := instruction_fails_or_starts env hop address
  · exact .inl first
  · have performed := instruction_of_starts env starts
    obtain ⟨fault, b, failed, rest⟩ | ⟨b, destroyed, accounts⟩ :=
      selfDestruct_fails_or_destroys env starts named
    · exact .inl ⟨fault, b, performed.trans failed, rest⟩
    · exact .inr ⟨b, performed.trans destroyed, accounts⟩

end Action

end EvmHarness
