import EvmHarness.Operation.Call
import EvmHarness.Proofs.WorldRun
set_option autoImplicit false

/-!
# What a call does

A call that has been opened has moved nothing: the account records and logs are those from before,
and the gas of the callee is part of what the caller has given up.  What it then does hangs on
three conditions only: the depth, the balance and the code.
-/

namespace EvmHarness

/-- What holds once a call is opened, between the state before it and the state then. -/
structure OpenedCall.Opens (opened : OpenedCall) (scheme : CallScheme) (a b : Active) : Prop
    extends a.Runs b where
  stack : b.frame.stack.words =
    a.frame.stack.words.drop (Operation.call scheme).info.inputs
  accounts : b.world.accounts = a.world.accounts
  logs : b.world.logs = a.world.logs
  /-- only two of the schemes carry a value -/
  valueless : scheme.carriesValue = false → opened.request.value = 0
  /-- a static frame sends no value by a plain call -/
  changeable : scheme = .call → a.frame.isStatic = true → opened.request.value = 0
  code : opened.code =
    ((a.world.accounts[opened.request.target]?).map Account.code).getD ByteArray.empty
  paid : b.frame.gas + opened.forwarded +
    (if opened.request.value = 0 then 0 else Gas.valueTransfer) ≤ a.frame.gas
  /-- the place for the output is there -/
  output : b.frame.memory.covers opened.output.1 opened.output.2 = true

/-- The gas of a callee is at most what the caller hands on and pays for sending value. -/
theorem OpenedCall.gas_le (opened : OpenedCall) :
    opened.gas ≤ opened.forwarded +
      (if opened.request.value = 0 then 0 else Gas.valueTransfer) := by
  unfold OpenedCall.gas
  split
  · exact Nat.le_refl _
  · calc Saturating.add opened.forwarded Gas.stipend
        ≤ opened.forwarded + Gas.stipend := Saturating.add_le _ _
      _ ≤ opened.forwarded + Gas.valueTransfer := Nat.add_le_add_left (by decide) _

/-- Code that is not empty is that of a record. -/
theorem OpenedCall.Opens.exists_record {opened : OpenedCall} {scheme : CallScheme} {a b : Active}
    (opens : opened.Opens scheme a b) (coded : opened.code.isEmpty = false) :
    ∃ record, a.world.accounts[opened.request.target]? = some record ∧
      opened.code = record.code := by
  have code := opens.code
  cases hr : a.world.accounts[opened.request.target]? with
  | some record =>
      rw [hr] at code
      exact ⟨record, rfl, code⟩
  | none =>
      rw [hr] at code
      rw [code] at coded
      exact absurd coded (by decide)

/-! ## Opening a call -/

theorem CallRequest.keeps_pop (scheme : CallScheme) :
    Keeps Frame.Runs (CallRequest.pop scheme) := by
  refine FrameM.keeps_pop.bind fun _ => FrameM.keeps_pop.bind fun _ => ?_
  have rest : ∀ value gas target, Keeps Frame.Runs (do
      let inputOffset ← FrameM.pop
      let inputSize ← FrameM.pop
      let outputOffset ← FrameM.pop
      let outputSize ← FrameM.pop
      return { gas, target, value, inputOffset, inputSize, outputOffset, outputSize } :
      FrameM CallRequest) := by
    intro value gas target
    refine FrameM.keeps_pop.bind fun _ => FrameM.keeps_pop.bind fun _ => ?_
    exact FrameM.keeps_pop.bind fun _ => FrameM.keeps_pop.bind fun _ => .pure _
  exact .ite (FrameM.keeps_pop.bind fun _ => rest _ _ _) ((Keeps.pure _).bind fun _ => rest _ _ _)

/-- The inputs that a call with a value takes off the stack, the value being the third of them. -/
theorem CallRequest.pop_eq_ok {scheme : CallScheme} {f g : Frame} {request : CallRequest}
    (h : CallRequest.pop scheme f = .ok request g) :
    g = { f with stack := ⟨f.stack.words.drop (Operation.call scheme).info.inputs⟩ } ∧
      (scheme.carriesValue = false → request.value = 0) := by
  unfold CallRequest.pop at h
  obtain ⟨_, f₁, h₁, h⟩ := bind_eq_ok.1 h
  obtain ⟨_, f₂, h₂, h⟩ := bind_eq_ok.1 h
  obtain ⟨_, e₁, rfl⟩ := FrameM.pop_eq_ok h₁
  obtain ⟨_, e₂, rfl⟩ := FrameM.pop_eq_ok h₂
  -- the value is on the stack for two of the schemes only
  split at h
  · rename_i hc
    obtain ⟨_, f₃, h₃, h⟩ := bind_eq_ok.1 h
    obtain ⟨_, f₄, h₄, h⟩ := bind_eq_ok.1 h
    obtain ⟨_, f₅, h₅, h⟩ := bind_eq_ok.1 h
    obtain ⟨_, f₆, h₆, h⟩ := bind_eq_ok.1 h
    obtain ⟨_, f₇, h₇, h⟩ := bind_eq_ok.1 h
    obtain ⟨_, e₃, rfl⟩ := FrameM.pop_eq_ok h₃
    obtain ⟨_, e₄, rfl⟩ := FrameM.pop_eq_ok h₄
    obtain ⟨_, e₅, rfl⟩ := FrameM.pop_eq_ok h₅
    obtain ⟨_, e₆, rfl⟩ := FrameM.pop_eq_ok h₆
    obtain ⟨_, e₇, rfl⟩ := FrameM.pop_eq_ok h₇
    obtain ⟨rfl, rfl⟩ := EStateM.Result.ok.inj h
    simp_all [Operation.info]
  · rename_i hc
    obtain ⟨_, f₃, h₃, h⟩ := bind_eq_ok.1 h
    obtain ⟨_, f₄, h₄, h⟩ := bind_eq_ok.1 h
    obtain ⟨_, f₅, h₅, h⟩ := bind_eq_ok.1 h
    obtain ⟨_, f₆, h₆, h⟩ := bind_eq_ok.1 h
    obtain ⟨_, f₇, h₇, h⟩ := bind_eq_ok.1 h
    obtain ⟨rfl, rfl⟩ := EStateM.Result.ok.inj h₃
    obtain ⟨_, e₄, rfl⟩ := FrameM.pop_eq_ok h₄
    obtain ⟨_, e₅, rfl⟩ := FrameM.pop_eq_ok h₅
    obtain ⟨_, e₆, rfl⟩ := FrameM.pop_eq_ok h₆
    obtain ⟨_, e₇, rfl⟩ := FrameM.pop_eq_ok h₇
    obtain ⟨rfl, rfl⟩ := EStateM.Result.ok.inj h
    simp_all [Operation.info]

namespace Action

open Active (Runs Pays)

theorem pays_clearReturnData : Keeps Pays clearReturnData := by
  have clears : EvmHarness.Keeps Frame.Pays (modify fun f : Frame =>
      { f with returnData := ByteArray.empty } : FrameM Unit) := fun f => .returnData f _
  exact keeps_pays_onFrame clears

theorem pays_payForCall (request : CallRequest) : Keeps Pays (payForCall request) := by
  refine (pays_accessCost _).bind fun _ => (pays_charge _).bind fun _ => ?_
  refine (pays_recordAt _).bind fun record => ?_
  cases record with
  | some record => exact .pure _
  | none => exact .pure _

theorem pays_forwardGas (requested : Word) : Keeps Pays (forwardGas requested) :=
  Keeps.get.bind fun _ => (pays_charge _).bind fun _ => .pure _

theorem payForCall_eq_ok {request : CallRequest} {env : Environment} {a b : Active}
    {code : ByteArray} (h : payForCall request env a = .ok code b) :
    a.Pays b ∧ b.frame.gas + (if request.value = 0 then 0 else Gas.valueTransfer) ≤ a.frame.gas ∧
      code = ((a.world.accounts[request.target]?).map Account.code).getD ByteArray.empty := by
  unfold payForCall at h
  obtain ⟨access, b₁, h₁, h⟩ := bind_eq_ok.1 h
  obtain ⟨_, b₂, h₂, h⟩ := bind_eq_ok.1 h
  obtain ⟨record, b₃, h₃, h⟩ := bind_eq_ok.1 h
  have touched : a.Pays b₁ := (pays_accessCost _).of_eq_ok h₁
  have charged : b₁.Pays b₂ := (pays_charge _).of_eq_ok h₂
  obtain ⟨hprice, hb₂⟩ := charge_eq_ok h₂
  obtain ⟨rfl, rfl⟩ := recordAt_eq_ok h₃
  have hgas : b₃.frame.gas + (if request.value = 0 then 0 else Gas.valueTransfer) ≤
      b₁.frame.gas := by
    rw [hb₂]
    show b₁.frame.gas - _ + _ ≤ _
    omega
  have hb : b = b₃ ∧ code =
      ((b₃.world.accounts[request.target]?).map Account.code).getD ByteArray.empty := by
    cases hr : b₃.world.accounts[request.target]? with
    | some record =>
        rw [hr] at h
        obtain ⟨rfl, rfl⟩ := pure_eq_ok.1 h
        exact ⟨rfl, rfl⟩
    | none =>
        rw [hr] at h
        obtain ⟨rfl, rfl⟩ := pure_eq_ok.1 h
        exact ⟨rfl, rfl⟩
  obtain ⟨rfl, rfl⟩ := hb
  have paid := touched.trans charged
  exact ⟨paid, Nat.le_trans hgas touched.frame.gas, by rw [paid.accounts]⟩

theorem forwardGas_eq_ok {requested : Word} {env : Environment} {a b : Active} {forwarded : Nat}
    (h : forwardGas requested env a = .ok forwarded b) :
    forwarded = min requested.toNat (Gas.forwardable a.frame.gas) ∧ a.Pays b ∧
      b.frame.gas + forwarded = a.frame.gas := by
  unfold forwardGas at h
  rw [get_bind] at h
  obtain ⟨_, b₁, h₁, h⟩ := bind_eq_ok.1 h
  obtain ⟨rfl, rfl⟩ := pure_eq_ok.1 h
  obtain ⟨hle, hb⟩ := charge_eq_ok h₁
  refine ⟨rfl, (pays_charge _).of_eq_ok h₁, ?_⟩
  rw [hb]
  show a.frame.gas - _ + _ = _
  omega

/-- What an opened call leaves for the rest of it. -/
theorem openCall_eq_ok {scheme : CallScheme} {env : Environment} {a b : Active}
    {opened : OpenedCall} (h : openCall scheme env a = .ok opened b) :
    opened.Opens scheme a b := by
  unfold openCall at h
  obtain ⟨request, a₁, h₁, h⟩ := bind_eq_ok.1 h
  rw [get_bind] at h
  obtain ⟨hf, hw⟩ := onFrame_eq_ok.1 h₁
  obtain ⟨hpop, hvalue⟩ := CallRequest.pop_eq_ok hf
  by_cases hstatic : scheme = .call ∧ a₁.frame.isStatic = true ∧ request.value ≠ 0
  · rw [if_pos hstatic] at h
    obtain ⟨_, _, hthrow, _⟩ := bind_eq_ok.1 h
    exact absurd hthrow throw_ne_ok
  rw [if_neg hstatic] at h
  obtain ⟨input, a₂, h₂, h⟩ := bind_eq_ok.1 h
  obtain ⟨output, a₃, h₃, h⟩ := bind_eq_ok.1 h
  obtain ⟨code, a₄, h₄, h⟩ := bind_eq_ok.1 h
  obtain ⟨forwarded, a₅, h₅, h⟩ := bind_eq_ok.1 h
  obtain ⟨_, a₆, h₆, h⟩ := bind_eq_ok.1 h
  obtain ⟨rfl, rfl⟩ := pure_eq_ok.1 h
  have popped : a.Runs a₁ := (keeps_runs_onFrame (CallRequest.keeps_pop scheme)).of_eq_ok h₁
  have regions : a₁.Pays a₃ :=
    ((pays_region _ _).of_eq_ok h₂).trans ((pays_region _ _).of_eq_ok h₃)
  obtain ⟨paid, hpaid, hcode⟩ := payForCall_eq_ok h₄
  obtain ⟨_, forwards, hforward⟩ := forwardGas_eq_ok h₅
  have clears : a₅.Pays a₆ := pays_clearReturnData.of_eq_ok h₆
  have pays : a₁.Pays a₆ := regions.trans (paid.trans (forwards.trans clears))
  refine ⟨popped.trans pays.toRuns, ?_, ?_, ?_, hvalue, ?_, ?_, ?_, ?_⟩
  · rw [pays.stack, hpop]
  · rw [pays.accounts, hw]
  · rw [pays.logs, hw]
  · intro hscheme hs
    by_cases hzero : request.value = 0
    · exact hzero
    · exact absurd ⟨hscheme, by rw [hpop]; exact hs, hzero⟩ hstatic
  · rw [hcode, regions.accounts, hw]
  · have hclear := clears.frame.gas
    have hregion := regions.frame.gas
    have hpop' := popped.frame.gas
    show a₆.frame.gas + forwarded + (if request.value = 0 then 0 else Gas.valueTransfer) ≤ _
    omega
  · obtain ⟨_, _, covered⟩ := region_eq_ok h₃
    exact Memory.covers_of_le covered (paid.trans (forwards.trans clears)).frame.grown

theorem keeps_openCall (scheme : CallScheme) : Keeps Runs (openCall scheme) := by
  refine (keeps_runs_onFrame (CallRequest.keeps_pop scheme)).bind fun request => ?_
  refine Keeps.get.bind fun s => ?_
  have rest : Keeps Runs (do
      let input ← region request.inputOffset request.inputSize
      let output ← region request.outputOffset request.outputSize
      let code ← payForCall request
      let forwarded ← forwardGas request.gas
      clearReturnData
      return { request, code, forwarded, input, output } : Action OpenedCall) := by
    refine (pays_region _ _).runs.bind fun _ => (pays_region _ _).runs.bind fun _ => ?_
    refine (pays_payForCall request).runs.bind fun _ => ?_
    refine (pays_forwardGas request.gas).runs.bind fun _ => ?_
    exact pays_clearReturnData.runs.bind fun _ => .pure _
  exact .ite ((Keeps.throw _).bind fun _ => rest) rest

/-! ## Starting a call -/

theorem answer_apply (gas : Nat) (w : Word) (env : Environment) (a : Active) :
    answer gas w env a =
      if a.frame.stack.size < Stack.limit then
        .ok .proceed { a with frame := { a.frame with
          gas := Saturating.add a.frame.gas gas, stack := ⟨w :: a.frame.stack.words⟩ } }
      else
        .error .stackLimitExceeded
          { a with frame := { a.frame with gas := Saturating.add a.frame.gas gas } } := by
  have refunded : refund gas env a =
      .ok () { a with frame := { a.frame with gas := Saturating.add a.frame.gas gas } } := rfl
  rw [answer, bind_of_eq_ok refunded]
  have pushed := push_apply w env
    { a with frame := { a.frame with gas := Saturating.add a.frame.gas gas } }
  by_cases h : a.frame.stack.size < Stack.limit
  · rw [if_pos h] at pushed ⊢
    exact bind_of_eq_ok pushed _
  · rw [if_neg h] at pushed ⊢
    exact bind_of_eq_error pushed _

/-- Gas that has been set aside may come back. -/
theorem answer_runs {gas : Nat} {w : Word} {env : Environment} {a b : Active} (hab : a.Runs b)
    (hgas : b.frame.gas + gas ≤ a.frame.gas) : a.Runs (stateAfter (answer gas w env b)) := by
  have hsum := Nat.le_trans (Saturating.add_le b.frame.gas gas) hgas
  rw [answer_apply]
  split
  · rename_i room
    exact ⟨hab.frame.withStackAndGas hsum fun _ => room, hab.world⟩
  · exact ⟨hab.frame.withStackAndGas hsum id, hab.world⟩

theorem answer_eq_ok {gas : Nat} {w : Word} {env : Environment} {a b : Active} {next : Next}
    (h : answer gas w env a = .ok next b) :
    next = .proceed ∧ b = { a with frame := { a.frame with
      gas := Saturating.add a.frame.gas gas, stack := ⟨w :: a.frame.stack.words⟩ } } := by
  rw [answer_apply] at h
  split at h
  · obtain ⟨rfl, rfl⟩ := EStateM.Result.ok.inj h
    exact ⟨rfl, rfl⟩
  · exact absurd h nofun

variable {scheme : CallScheme} {opened : OpenedCall} {env : Environment} {a b c : Active}

/-- The accounts after the transfer that an opened call makes, if it can start at all. -/
def callTransfer? (scheme : CallScheme) (opened : OpenedCall) (env : Environment) (b : Active) :
    Option Accounts :=
  if env.depth < callDepthLimit then
    b.world.accounts.transfer? b.frame.account
      (scheme.actsOn b.frame opened.request.target) opened.request.value
  else none

/-- The input that an opened call hands to its callee. -/
def callInput (opened : OpenedCall) (b : Active) : ByteArray :=
  b.frame.memory.read opened.input.1 opened.input.2

theorem startCall_apply (scheme : CallScheme) (opened : OpenedCall) (env : Environment)
    (b : Active) :
    startCall scheme opened env b =
      match callTransfer? scheme opened env b with
      | none => answer opened.forwarded 0 env b
      | some moved =>
        if opened.code.isEmpty then
          answer opened.gas 1 env { b with world := b.world.mapAccounts fun _ => moved }
        else
          .ok (.enter
            (scheme.callee b.frame opened.request opened.code (callInput opened b) opened.gas)
            (.call opened.output.1 opened.output.2) b.world.accounts)
            { b with world := b.world.mapAccounts fun _ => moved } := by
  unfold startCall
  rw [get_bind, read_bind]
  show (match callTransfer? scheme opened env b with
    | none => answer opened.forwarded 0
    | some moved => do
      modifyWorld (·.mapAccounts fun _ => moved)
      if opened.code.isEmpty then answer opened.gas 1
      else
        return .enter
          (scheme.callee b.frame opened.request opened.code (callInput opened b) opened.gas)
          (.call opened.output.1 opened.output.2) b.world.accounts : Action Next) env b = _
  cases callTransfer? scheme opened env b with
  | none => rfl
  | some moved =>
      have modified : modifyWorld (·.mapAccounts fun _ => moved) env b =
          .ok () { b with world := b.world.mapAccounts fun _ => moved } := rfl
      dsimp only
      rw [bind_of_eq_ok modified]
      split <;> rfl

/-- A call that can start has the value to send. -/
theorem callTransfer_covered (ho : opened.Opens scheme a b) {moved : Accounts}
    (hm : callTransfer? scheme opened env b = some moved) :
    b.world.accounts.transfer? a.frame.account (scheme.actsOn b.frame opened.request.target)
      opened.request.value = some moved := by
  unfold callTransfer? at hm
  split at hm
  · rwa [ho.frame.account] at hm
  · exact absurd hm nofun

/-- A call that can start is not too deep. -/
theorem callTransfer_shallow {moved : Accounts}
    (hm : callTransfer? scheme opened env b = some moved) : env.depth < callDepthLimit := by
  unfold callTransfer? at hm
  split at hm
  · rename_i shallow
    exact shallow
  · exact absurd hm nofun

/-- A static frame or a static call sends nothing, or only to itself. -/
theorem callTransfer_harmless (ho : opened.Opens scheme a b)
    (h : a.frame.isStatic = true ∨ scheme = .static) :
    opened.request.value = 0 ∨
      a.frame.account = scheme.actsOn b.frame opened.request.target := by
  cases scheme with
  | call => exact .inl (ho.changeable rfl (h.resolve_right (by decide)))
  | callCode => exact .inr ho.frame.account.symm
  | delegate => exact .inl (ho.valueless rfl)
  | static => exact .inl (ho.valueless rfl)

/-- The transfer of a call is one that the frame may make, be it static or not. -/
theorem callTransfer_alters (ho : opened.Opens scheme a b) {moved : Accounts}
    (hm : callTransfer? scheme opened env b = some moved) :
    World.Alters a.frame.account a.frame.isStatic noSites b.world
      (b.world.mapAccounts fun _ => moved) :=
  .transfer _ _ moved (fun hs => callTransfer_harmless ho (.inl hs)) (callTransfer_covered ho hm)

theorem startCall_runs (ho : opened.Opens scheme a b) :
    a.Runs (stateAfter (startCall scheme opened env b)) := by
  have hgas : b.frame.gas + opened.gas ≤ a.frame.gas := by
    have := opened.gas_le
    have := ho.paid
    omega
  have hback : b.frame.gas + opened.forwarded ≤ a.frame.gas :=
    Nat.le_trans (Nat.le_add_right _ _) ho.paid
  rw [startCall_apply]
  cases hm : callTransfer? scheme opened env b with
  | none => exact answer_runs ho.toRuns hback
  | some moved =>
      have transferred : a.Runs { b with world := b.world.mapAccounts fun _ => moved } :=
        ⟨ho.frame, ho.world.tail (callTransfer_alters ho hm)⟩
      dsimp only
      split
      · exact answer_runs transferred hgas
      · exact transferred

/-- A call leaves its frame a later state of itself, whatever becomes of it. -/
theorem keeps_call (scheme : CallScheme) : Keeps Runs (call scheme) := by
  intro env a
  show a.Runs (stateAfter ((openCall scheme env >>= fun opened => startCall scheme opened env) a))
  rw [stateAfter_bind]
  cases h : openCall scheme env a with
  | ok opened b => exact startCall_runs (openCall_eq_ok h)
  | error fault b => exact (keeps_openCall scheme env).of_eq_error h

/-- The ways in which a call gives a value: refused, answered for an account without code, or a
callee entered. -/
theorem call_eq_ok {next : Next} (h : call scheme env a = .ok next c) :
    ∃ opened b, opened.Opens scheme a b ∧
      ((callTransfer? scheme opened env b = none ∧ answer opened.forwarded 0 env b = .ok next c) ∨
        ∃ moved, callTransfer? scheme opened env b = some moved ∧
          ((opened.code.isEmpty = true ∧ answer opened.gas 1 env
              { b with world := b.world.mapAccounts fun _ => moved } = .ok next c) ∨
            (opened.code.isEmpty = false ∧
              next = .enter
                (scheme.callee b.frame opened.request opened.code (callInput opened b) opened.gas)
                (.call opened.output.1 opened.output.2) a.world.accounts ∧
              c = { b with world := b.world.mapAccounts fun _ => moved }))) := by
  obtain ⟨opened, b, ho, hs⟩ := bind_eq_ok.1 h
  have opens := openCall_eq_ok ho
  refine ⟨opened, b, opens, ?_⟩
  rw [startCall_apply] at hs
  cases hm : callTransfer? scheme opened env b with
  | none =>
      rw [hm] at hs
      exact .inl ⟨rfl, hs⟩
  | some moved =>
      rw [hm] at hs
      refine .inr ⟨moved, rfl, ?_⟩
      cases hc : opened.code.isEmpty with
      | true =>
          rw [hc] at hs
          exact .inl ⟨rfl, hs⟩
      | false =>
          rw [hc] at hs
          obtain ⟨rfl, rfl⟩ := EStateM.Result.ok.inj hs
          exact .inr ⟨rfl, by rw [opens.accounts], rfl⟩

end Action

end EvmHarness
