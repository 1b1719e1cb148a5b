import EvmHarness.Proofs.LookUp
import EvmHarness.Proofs.WarmSlots
set_option autoImplicit false

/-!
# Operations around the first touch

The first touch of an address or of a storage slot in a transaction costs more than later ones.  An
operation that asks for such a price is cut here where it touches: what it does up to there, the
price, and what it does once that is paid.  It touches before it pays, and nothing that it does
afterwards takes the touch back.
-/

namespace EvmHarness

open EvmHarness.Action (pop push onFrame region touch accessCost charge recordAt demandChangeable
  modifyWorld onStorage forwardGas clearReturnData startCall readingOf)

/-- What comes of paying an amount and going on: the gas is less by the amount, or it does not cover
it. -/
def Active.paying (a : Active) (env : Environment) (amount : Nat) (rest : Action Next) :
    EStateM.Result Fault Active Next :=
  if amount ≤ a.frame.gas then
    rest env { a with frame := { a.frame with gas := a.frame.gas - amount } }
  else .error (.outOfGas a.frame.gas amount) a

/-- The state with other storage of the account that the frame runs for. -/
def Active.withStorage (a : Active) (storage : Storage) : Active :=
  { a with world := a.world.mapAccounts (·.update a.frame.account fun record =>
    { record with storage := storage }) }

/-- The storage of that account. -/
def Active.storage (a : Active) : Storage := (a.world.accounts.read a.frame.account).storage

/-- What an operation is about to do when it touches an address. -/
structure AccountAccess where
  address : Address
  /-- the price of the address; asking for it touches the address -/
  price : Action Nat
  /-- what it pays together with that -/
  extra : Nat
  /-- what it does once that is paid -/
  rest : Action Next

/-- The price of the address is nothing where the address has been touched, and else a surcharge.
Once it is paid, the touch is remembered. -/
structure AccountAccess.Sound (surcharge : Nat) (access : AccountAccess) : Prop where
  price : ∀ (env : Environment) (a : Active), access.price env a =
    .ok (if access.address ∈ a.world.accessed then 0 else surcharge)
      { a with world := a.world.touch access.address }
  remembers : ∀ (env : Environment) (a : Active) (address : Address),
    address ∈ a.world.accessed → address ∈ (stateAfter (access.rest env a)).world.accessed

/-- An access to a slot of the account that the frame runs for. -/
inductive SlotAccess where
  | load (key : Word)
  | store (key value : Word)
  deriving DecidableEq

namespace SlotAccess

/-- The slot. -/
def key : SlotAccess → Word
  | load key => key
  | store key _ => key

/-- The price of the slot; asking for it touches the slot. -/
def price : SlotAccess → Storage → Nat × Storage
  | load key => (·.readCost key)
  | store key value => (·.writeCost key value)

/-- What is done once that is paid, given what the slot holds. -/
def rest (current : Word) : SlotAccess → Action Next
  | load _ => do
    push current
    return .proceed
  | store key value => do
    onStorage fun storage => ((), storage.store key value)
    return .proceed

/-- The operation from the touch of the slot on. -/
def body : SlotAccess → Action Next
  | load key => do
    let cost ← onStorage (·.readCost key)
    let value ← onStorage (·.load key)
    charge cost
    push value
    return .proceed
  | store key value => do
    charge (← onStorage (·.writeCost key value))
    onStorage fun storage => ((), storage.store key value)
    return .proceed

/-- What the access costs where the slot has been touched, given what the slot holds. -/
def warmPrice (current : Word) : SlotAccess → Nat
  | load _ => 100
  | store _ value => if current = value then 100 else if current = 0 then 20000 else 2900

/-- What it costs where the slot has not been touched. -/
def coldPrice (current : Word) : SlotAccess → Nat
  | load _ => 2100
  | store key value => (store key value).warmPrice current + 2100

end SlotAccess

namespace Operation

/-- What the first touch of the address that the operation is given costs. -/
def surcharge : Operation → Nat
  | .selfDestruct => 2600
  | _ => 2500

theorem surcharge_eq (op : Operation) :
    op.surcharge = if op = .selfDestruct then 2600 else 2500 := by
  cases op <;> rfl

/-- The operation up to the touch of an address that it pays for, if it has one.  A creation touches
the new address, too, and pays nothing for that. -/
def accountAccess? : Operation → Option (Action AccountAccess)
  | .account r => some do
    let address := Address.ofWord (← pop)
    return { address, price := accessCost address, extra := 0, rest := do
      push (readingOf r (← recordAt address))
      return .proceed }
  | .copyAccountCode => some do
    let address := Address.ofWord (← pop)
    let dest ← pop
    let offset ← pop
    let size ← pop
    return { address, price := accessCost address, extra := 0, rest := do
      let record ← recordAt address
      onFrame (FrameM.copyIn (record.getD .empty).code dest offset size)
      return .proceed }
  | .call scheme => some do
    let request ← onFrame (CallRequest.pop scheme)
    if scheme = .call ∧ (← get).frame.isStatic ∧ request.value ≠ 0 then
      throw .stateChangeWhileStatic
    let input ← region request.inputOffset request.inputSize
    let output ← region request.outputOffset request.outputSize
    return {
      address := request.target
      price := accessCost request.target
      extra := if request.value = 0 then 0 else Gas.valueTransfer
      rest := do
        let record ← recordAt request.target
        let forwarded ← forwardGas request.gas
        clearReturnData
        startCall scheme
          { request, code := (record.getD .empty).code, forwarded, input, output } }
  | .selfDestruct => some do
    demandChangeable
    let beneficiary := Address.ofWord (← pop)
    return {
      address := beneficiary
      price := do return if ← touch beneficiary then Gas.coldBeneficiary else 0
      extra := 0
      rest := do
        let self := (← get).frame.account
        modifyWorld (·.mapAccounts (·.destroy self beneficiary))
        return .halt ByteArray.empty }
  | _ => none

/-- The operation up to the touch of a storage slot, if it has one. -/
def slotAccess? : Operation → Option (Action SlotAccess)
  | .loadSlot => some do return .load (← pop)
  | .storeSlot => some do
    demandChangeable
    let gas := (← get).frame.gas
    if gas ≤ Gas.stipend then throw (.outOfGas gas (Gas.stipend + 1))
    let key ← pop
    let value ← pop
    return .store key value
  | _ => none

end Operation

/-! ## The price of a slot -/

namespace SlotAccess

variable (access : SlotAccess) (s : Storage)

/-- The price of a slot hangs on whether the slot has been touched and on what it holds. -/
theorem price_eq : (access.price s).1 =
    if access.key ∈ s.warm then access.warmPrice (s.value access.key)
    else access.coldPrice (s.value access.key) := by
  by_cases touched : access.key ∈ s.warm
  · have known : s.warm.contains access.key = true := Std.ExtTreeSet.mem_iff_contains.1 touched
    rw [if_pos touched]
    cases access with
    | load key => exact if_pos known
    | store key value => exact congrArg (warmPrice _ (store key value) + ·) (if_pos known)
  · have unknown : ¬ s.warm.contains access.key = true :=
      mt Std.ExtTreeSet.mem_iff_contains.2 touched
    rw [if_neg touched]
    cases access with
    | load key => exact if_neg unknown
    | store key value => exact congrArg (warmPrice _ (store key value) + ·) (if_neg unknown)

theorem coldPrice_ne_warmPrice (current : Word) :
    access.coldPrice current ≠ access.warmPrice current := by
  cases access with
  | load key => exact of_decide_eq_true rfl
  | store key value => exact Nat.ne_of_gt (Nat.lt_add_of_pos_right (by decide))

end SlotAccess

/-- Touching a slot again changes nothing. -/
theorem Storage.touch_touch (s : Storage) (key : Word) : (s.touch key).touch key = s.touch key := by
  have same : (s.warm.insert key).insert key = s.warm.insert key := by
    apply Std.ExtTreeSet.ext_mem
    intro k
    simp
  simp only [touch, same]

theorem Accounts.update_update (xs : Accounts) (a : Address) (f g : Account → Account) :
    (xs.update a f).update a g = xs.update a (g ∘ f) := by
  apply Std.ExtTreeMap.ext_getElem?
  intro b
  simp only [getElem?_update, read_update]
  split <;> rfl

namespace Active

/-- The world is the same in both states. -/
def SameWorld (a b : Active) : Prop := b.world = a.world

instance : Std.Refl SameWorld := ⟨fun _ => rfl⟩

instance : IsTrans Active SameWorld := ⟨fun _ _ _ first second => Eq.trans second first⟩

/-- A state is left as it is where it cannot pay, and with less gas to what is done else. -/
theorem stateAfter_paying {P : Active → Prop} {a : Active} {env : Environment} {amount : Nat}
    {rest : Action Next} (short : P a)
    (paid : ∀ gas, P (stateAfter (rest env { a with frame := { a.frame with gas := gas } }))) :
    P (stateAfter (a.paying env amount rest)) := by
  unfold paying
  split
  · exact paid _
  · exact short

@[simp] theorem storage_withStorage (a : Active) (s : Storage) : (a.withStorage s).storage = s := by
  show ((a.world.accounts.update _ _).read a.frame.account).storage = s
  rw [Accounts.read_update, if_pos rfl]

@[simp] theorem withStorage_withStorage (a : Active) (s s' : Storage) :
    (a.withStorage s).withStorage s' = a.withStorage s' := by
  have twice := a.world.accounts.update_update a.frame.account
    (fun record => { record with storage := s }) (fun record => { record with storage := s' })
  exact congrArg (fun xs => { a with world := a.world.mapAccounts fun _ => xs }) twice

end Active

namespace Action

variable {op : Operation} {env : Environment} {a b : Active}

theorem onStorage_eq {α : Type} (act : Storage → α × Storage) (env : Environment) (a : Active) :
    onStorage act env a = .ok (act a.storage).1 (a.withStorage (act a.storage).2) := rfl

/-- Paying comes before going on. -/
theorem charge_bind (amount : Nat) (rest : Action Next) :
    (charge amount >>= fun _ => rest) env a = a.paying env amount rest := by
  have charged := charge_apply amount env a
  unfold Active.paying
  split
  · rename_i covered
    rw [if_pos covered] at charged
    exact bind_of_eq_ok charged _
  · rename_i short
    rw [if_neg short] at charged
    exact bind_of_eq_error charged _

/-- An operation that touches an address pays for the touch before anything else comes of it. -/
theorem perform_of_accountAccess {opening : Action AccountAccess}
    (h : op.accountAccess? = some opening) :
    perform op = (do
      let access ← opening
      charge ((← access.price) + access.extra)
      access.rest) := by
  cases op with
  | account r =>
      obtain rfl := Option.some.inj h
      simp only [perform, readAccount, visit, bind_assoc, pure_bind]
      rfl
  | copyAccountCode =>
      obtain rfl := Option.some.inj h
      simp only [perform, copyAccountCode, visit, bind_assoc, pure_bind]
      refine bind_congr fun w => bind_congr fun dest => bind_congr fun offset => ?_
      refine bind_congr fun size => bind_congr fun price => bind_congr fun _ => ?_
      refine bind_congr fun record => ?_
      cases record <;> rfl
  | call scheme =>
      obtain rfl := Option.some.inj h
      simp only [perform, call, openCall, payForCall, bind_assoc]
      refine bind_congr fun request => bind_congr fun s => ?_
      split
      · rfl
      · simp only [bind_assoc, pure_bind]
        refine bind_congr fun input => bind_congr fun output => bind_congr fun price => ?_
        refine bind_congr fun _ => bind_congr fun record => ?_
        cases record <;> rfl
  | selfDestruct =>
      obtain rfl := Option.some.inj h
      simp only [perform, selfDestruct, openSelfDestruct, bind_assoc, pure_bind]
      rfl
  | _ => exact absurd h.symm (Option.some_ne_none _)

theorem perform_of_slotAccess {opening : Action SlotAccess} (h : op.slotAccess? = some opening) :
    perform op = opening >>= SlotAccess.body := by
  cases op with
  | loadSlot =>
      obtain rfl := Option.some.inj h
      simp only [perform, loadSlot, SlotAccess.body, bind_assoc, pure_bind]
  | storeSlot =>
      obtain rfl := Option.some.inj h
      simp only [perform, storeSlot, bind_assoc]
      refine bind_congr fun _ => bind_congr fun s => ?_
      split
      · rfl
      · simp only [SlotAccess.body, bind_assoc, pure_bind]
  | _ => exact absurd h.symm (Option.some_ne_none _)

/-- An access to a slot pays the price of that once the slot is touched, and then goes on with what
the slot holds. -/
theorem slotAccess_apply (access : SlotAccess) (env : Environment) (a : Active) :
    access.body env a = (a.withStorage (a.storage.touch access.key)).paying env
      (access.price a.storage).1 (access.rest (a.storage.value access.key)) := by
  cases access with
  | load key =>
      have found : onStorage (·.load key) env (a.withStorage (a.storage.touch key)) =
          .ok (a.storage.value key) (a.withStorage (a.storage.touch key)) := by
        rw [onStorage_eq, Active.storage_withStorage]
        show EStateM.Result.ok (a.storage.value key)
          ((a.withStorage (a.storage.touch key)).withStorage ((a.storage.touch key).touch key)) = _
        rw [Active.withStorage_withStorage, Storage.touch_touch]
      have priced := onStorage_eq (·.readCost key) env a
      exact (bind_of_eq_ok priced _).trans ((bind_of_eq_ok found _).trans (charge_bind _ _))
  | store key value =>
      have priced := onStorage_eq (·.writeCost key value) env a
      exact (bind_of_eq_ok priced _).trans (charge_bind _ _)

/-! ## Up to the touch -/

theorem sameWorld_onFrame {α : Type} (act : FrameM α) : Keeps Active.SameWorld (onFrame act) :=
  keeps_onFrame (S := fun _ _ => True) (fun _ => trivial) fun _ _ _ _ => rfl

theorem sameWorld_demandChangeable : Keeps Active.SameWorld demandChangeable :=
  Keeps.get.bind fun _ => .ite (.throw _) (.pure _)

/-- Up to the touch of an address, only the frame is changed. -/
theorem sameWorld_accountAccess {opening : Action AccountAccess}
    (h : op.accountAccess? = some opening) : Keeps Active.SameWorld opening := by
  cases op with
  | account r =>
      obtain rfl := Option.some.inj h
      exact (sameWorld_onFrame _).bind fun _ => .pure _
  | copyAccountCode =>
      obtain rfl := Option.some.inj h
      refine (sameWorld_onFrame _).bind fun _ => (sameWorld_onFrame _).bind fun _ => ?_
      exact (sameWorld_onFrame _).bind fun _ => (sameWorld_onFrame _).bind fun _ => .pure _
  | call scheme =>
      obtain rfl := Option.some.inj h
      refine (sameWorld_onFrame _).bind fun request => Keeps.get.bind fun s => ?_
      refine .ite ((Keeps.throw _).bind fun _ => ?_) ?_
      all_goals
        refine (sameWorld_onFrame _).bind fun _ => ?_
        exact (sameWorld_onFrame _).bind fun _ => .pure _
  | selfDestruct =>
      obtain rfl := Option.some.inj h
      exact sameWorld_demandChangeable.bind fun _ => (sameWorld_onFrame _).bind fun _ => .pure _
  | _ => exact absurd h.symm (Option.some_ne_none _)

/-- So it is up to the touch of a slot. -/
theorem sameWorld_slotAccess {opening : Action SlotAccess} (h : op.slotAccess? = some opening) :
    Keeps Active.SameWorld opening := by
  cases op with
  | loadSlot =>
      obtain rfl := Option.some.inj h
      exact (sameWorld_onFrame _).bind fun _ => .pure _
  | storeSlot =>
      obtain rfl := Option.some.inj h
      refine sameWorld_demandChangeable.bind fun _ => Keeps.get.bind fun s => ?_
      refine .ite ((Keeps.throw _).bind fun _ => ?_) ?_
      all_goals
        exact (sameWorld_onFrame _).bind fun _ => (sameWorld_onFrame _).bind fun _ => .pure _
  | _ => exact absurd h.symm (Option.some_ne_none _)

/-! ## After the touch -/

open Active (Remembers)

/-- The price of an address is the surcharge where the address has not been touched, and nothing
where it has. -/
theorem accessCost_eq (address : Address) (env : Environment) (a : Active) :
    accessCost address env a = .ok (if address ∈ a.world.accessed then 0 else 2500)
      { a with world := a.world.touch address } := by
  rw [accessCost_apply, Active.touchPrice]
  simp only [Std.ExtTreeSet.mem_iff_contains]
  rfl

/-- What an operation pays for an address, and that it goes on remembering the touch. -/
theorem gives_accountAccess {opening : Action AccountAccess}
    (h : op.accountAccess? = some opening) :
    Gives (AccountAccess.Sound op.surcharge) opening := by
  have of_keeps {rest : Action Next} (keeps : Keeps Remembers rest) (env : Environment) (a : Active)
      (address : Address) : address ∈ a.world.accessed →
        address ∈ (stateAfter (rest env a)).world.accessed := (keeps env a).addresses
  cases op with
  | account r =>
      obtain rfl := Option.some.inj h
      refine .bind fun _ => .pure ⟨accessCost_eq _, of_keeps ?_⟩
      exact (pays_recordAt _).remembers.bind fun _ => remembers_push_proceed _
  | copyAccountCode =>
      obtain rfl := Option.some.inj h
      refine .bind fun _ => .bind fun _ => .bind fun _ => .bind fun _ => ?_
      refine .pure ⟨accessCost_eq _, of_keeps ?_⟩
      refine (pays_recordAt _).remembers.bind fun _ => ?_
      exact (remembers_onFrame _).bind fun _ => .pure _
  | call scheme =>
      obtain rfl := Option.some.inj h
      refine .bind fun request => .bind fun s => .ite (.bind fun _ => ?_) ?_
      all_goals
        refine .bind fun input => .bind fun output => .pure ⟨accessCost_eq _, of_keeps ?_⟩
        refine (pays_recordAt _).remembers.bind fun _ => ?_
        refine (pays_forwardGas _).remembers.bind fun _ => ?_
        exact pays_clearReturnData.remembers.bind fun _ => remembers_startCall scheme _
  | selfDestruct =>
      obtain rfl := Option.some.inj h
      refine .bind fun _ => .bind fun w => .pure ⟨fun env a => ?_, fun _ _ _ => id⟩
      have touched : touch (Address.ofWord w) env a =
          .ok (!a.world.accessed.contains (Address.ofWord w))
            { a with world := a.world.touch (Address.ofWord w) } := rfl
      refine (bind_of_eq_ok touched _).trans ?_
      simp only [Std.ExtTreeSet.mem_iff_contains]
      cases a.world.accessed.contains (Address.ofWord w) <;> rfl
  | _ => exact absurd h.symm (Option.some_ne_none _)

/-- Once its slot is touched and paid for, an access remembers that. -/
theorem remembers_slotAccess (access : SlotAccess) (current : Word) :
    Keeps Remembers (access.rest current) := by
  cases access with
  | load key => exact remembers_push_proceed _
  | store key value =>
      exact (remembers_onStorage fun s => mem_warm_touch s key).bind fun _ => .pure _

end Action

end EvmHarness
