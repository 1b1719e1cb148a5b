import EvmHarness.Proofs.HeldCode
import EvmHarness.Proofs.TouchedAddresses
set_option autoImplicit false

/-!
# Touches are remembered

Addresses are touched on the machine, slots in the records, and nothing that an instruction does
takes either kind of touch back but the removal of a record.  Every other action remembers them,
whether it gives a value or a fault, since the price of a touch is asked for after it.
-/

namespace EvmHarness

/-- The slot of the account has been touched in the transaction. -/
def Accounts.IsWarm (xs : Accounts) (account : Address) (key : Word) : Prop :=
  key ∈ (xs.read account).storage.warm

instance (xs : Accounts) (account : Address) (key : Word) : Decidable (xs.IsWarm account key) :=
  inferInstanceAs (Decidable (key ∈ _))

/-- Whatever has been touched in the first state has been touched in the second. -/
structure Active.Remembers (a b : Active) : Prop where
  addresses : ∀ {address}, address ∈ a.world.accessed → address ∈ b.world.accessed
  slots : ∀ {account key}, a.world.accounts.IsWarm account key →
    b.world.accounts.IsWarm account key

namespace Accounts.IsWarm

variable {xs ys : Accounts} {account : Address} {key : Word}

/-- After a change of one record, the slots of its account are those that the new record knows. -/
theorem update_self_iff {f : Account → Account} {a : Address} :
    (xs.update a f).IsWarm a key ↔ key ∈ (f (xs.read a)).storage.warm := by
  unfold IsWarm
  rw [read_update, if_pos rfl]

theorem update {f : Account → Account} {a : Address} (h : xs.IsWarm account key)
    (keeps : key ∈ (xs.read a).storage.warm → key ∈ (f (xs.read a)).storage.warm) :
    (xs.update a f).IsWarm account key := by
  unfold IsWarm
  rw [read_update]
  split
  · rename_i same
    subst same
    exact keeps h
  · exact h

theorem transfer {sender receiver : Address} {value : Word} (h : xs.IsWarm account key)
    (moved : xs.transfer? sender receiver value = some ys) : ys.IsWarm account key := by
  unfold transfer? at moved
  split at moved
  · exact absurd moved nofun
  · split at moved
    · obtain rfl := Option.some.inj moved
      exact h
    · obtain rfl := Option.some.inj moved
      have debited : (xs.update sender fun r => { r with balance := r.balance - value }).IsWarm
          account key := h.update id
      exact debited.update id

end Accounts.IsWarm

namespace Active.Remembers

variable {a b c : Active}

theorem trans (hab : a.Remembers b) (hbc : b.Remembers c) : a.Remembers c :=
  ⟨fun h => hbc.addresses (hab.addresses h), fun h => hbc.slots (hab.slots h)⟩

instance : Std.Refl Remembers := ⟨fun _ => ⟨id, id⟩⟩

instance : IsTrans Active Remembers := ⟨fun _ _ _ => trans⟩

theorem of_world (h : b.world = a.world) : a.Remembers b := by
  constructor <;> rw [h] <;> exact id

/-- Where the records are changed, the slots that they know decide. -/
theorem of_accounts {xs : Accounts}
    (slots : ∀ {account key}, a.world.accounts.IsWarm account key → xs.IsWarm account key) :
    a.Remembers { a with world := a.world.mapAccounts fun _ => xs } := ⟨id, slots⟩

end Active.Remembers

namespace Action

open Active (Remembers Pays)

variable {α : Type} {env : Environment} {a : Active}

theorem Keeps.remembers {act : Action α} (h : Keeps Pays act) : Keeps Remembers act :=
  h.mono fun _ _ pays => ⟨pays.world.accessed, by rw [pays.accounts]; exact id⟩

/-! ## The parts of instructions -/

theorem remembers_onFrame (act : FrameM α) : Keeps Remembers (onFrame act) := by
  rintro env ⟨f, w⟩
  rw [onFrame_apply]
  cases act f with
  | ok v g => exact .of_world rfl
  | error fault g => exact .of_world rfl

theorem remembers_pop : Keeps Remembers pop := remembers_onFrame _

theorem remembers_push (w : Word) : Keeps Remembers (push w) := remembers_onFrame _

theorem remembers_push_proceed (w : Word) :
    Keeps Remembers (do push w; return .proceed : Action Next) :=
  (remembers_push w).bind fun _ => .pure _

theorem remembers_demandChangeable : Keeps Remembers demandChangeable :=
  Keeps.get.bind fun _ => .ite (.throw _) (.pure _)

theorem remembers_onStorage {act : Storage → α × Storage}
    (keeps : ∀ (s : Storage) {key}, key ∈ s.warm → key ∈ (act s).2.warm) :
    Keeps Remembers (onStorage act) := by
  intro env a
  rw [onStorage_apply]
  exact .of_accounts fun h => h.update (keeps _)

/-- To touch a slot is to remember the ones before it. -/
theorem mem_warm_touch (s : Storage) (key : Word) {k : Word} (h : k ∈ s.warm) :
    k ∈ (s.touch key).warm :=
  Std.ExtTreeSet.mem_insert.2 (.inr h)

/-! ## The operations on accounts and logs -/

theorem remembers_readAccount (r : AccountReading) : Keeps Remembers (readAccount r) :=
  remembers_pop.bind fun _ => (pays_visit _).remembers.bind fun _ => remembers_push_proceed _

theorem remembers_copyAccountCode : Keeps Remembers copyAccountCode := by
  refine remembers_pop.bind fun _ => remembers_pop.bind fun _ => remembers_pop.bind fun _ => ?_
  refine remembers_pop.bind fun _ => (pays_visit _).remembers.bind fun _ => ?_
  exact (remembers_onFrame _).bind fun _ => .pure _

theorem remembers_loadSlot : Keeps Remembers loadSlot := by
  refine remembers_pop.bind fun key => ?_
  refine (remembers_onStorage fun s => mem_warm_touch s key).bind fun _ => ?_
  refine (remembers_onStorage fun s => mem_warm_touch s key).bind fun _ => ?_
  exact (pays_charge _).remembers.bind fun _ => remembers_push_proceed _

theorem remembers_storeSlot : Keeps Remembers storeSlot := by
  refine remembers_demandChangeable.bind fun _ => Keeps.get.bind fun a => ?_
  have write : Keeps Remembers (do
      let key ← pop
      let value ← pop
      charge (← onStorage (·.writeCost key value))
      onStorage fun storage => ((), storage.store key value)
      return .proceed : Action Next) := by
    refine remembers_pop.bind fun key => remembers_pop.bind fun value => ?_
    refine (remembers_onStorage fun s => mem_warm_touch s key).bind fun _ => ?_
    refine (pays_charge _).remembers.bind fun _ => ?_
    exact (remembers_onStorage fun s => mem_warm_touch s key).bind fun _ => .pure _
  exact .ite ((Keeps.throw _).bind fun _ => write) write

theorem remembers_loadTransient : Keeps Remembers loadTransient := by
  refine remembers_pop.bind fun key => ?_
  exact (remembers_onStorage fun _ => id).bind fun _ => remembers_push_proceed _

theorem remembers_storeTransient : Keeps Remembers storeTransient := by
  refine remembers_demandChangeable.bind fun _ => remembers_pop.bind fun key => ?_
  refine remembers_pop.bind fun value => ?_
  exact (remembers_onStorage fun _ => id).bind fun _ => .pure _

theorem remembers_writeLog (topics : Nat) : Keeps Remembers (writeLog topics) := by
  refine remembers_demandChangeable.bind fun _ => remembers_pop.bind fun _ => ?_
  refine remembers_pop.bind fun _ => (remembers_onFrame _).bind fun _ => ?_
  refine (pays_region _ _).remembers.bind fun _ => (pays_charge _).remembers.bind fun _ => ?_
  refine Keeps.get.bind fun _ => Keeps.bind (keeps_modifyWorld fun _ => ?_) fun _ => .pure _
  exact ⟨id, id⟩

theorem remembers_openSelfDestruct : Keeps Remembers openSelfDestruct := by
  refine remembers_demandChangeable.bind fun _ => remembers_pop.bind fun _ => ?_
  refine (pays_touch _).remembers.bind fun _ => (pays_charge _).remembers.bind fun _ => .pure _

/-- A self-destruction that fails does so before the record is removed. -/
theorem remembers_selfDestruct (fails : ∀ next b, selfDestruct env a ≠ .ok next b) :
    a.Remembers (stateAfter (selfDestruct env a)) := by
  cases h : selfDestruct env a with
  | ok next b => exact absurd h (fails next b)
  | error fault b =>
      obtain failed | ⟨_, _, _, destroys⟩ := bind_eq_error.1 h
      · exact (remembers_openSelfDestruct env).of_eq_error failed
      · exact absurd destroys nofun

/-! ## Calls and creations -/

theorem remembers_answer (gas : Nat) (w : Word) : Keeps Remembers (answer gas w) := by
  have refunds : Keeps Remembers (refund gas) :=
    remembers_onFrame (modify fun f : Frame => { f with gas := Saturating.add f.gas gas })
  exact refunds.bind fun _ => remembers_push_proceed w

theorem remembers_openCall (scheme : CallScheme) : Keeps Remembers (openCall scheme) := by
  refine (remembers_onFrame _).bind fun request => Keeps.get.bind fun s => ?_
  have rest : Keeps Remembers (do
      let input ← region request.inputOffset request.inputSize
      let output ← region request.outputOffset request.outputSize
      let code ← payForCall request
      let forwarded ← forwardGas request.gas
      clearReturnData
      return { request, code, forwarded, input, output } : Action OpenedCall) := by
    refine (pays_region _ _).remembers.bind fun _ => (pays_region _ _).remembers.bind fun _ => ?_
    refine (pays_payForCall request).remembers.bind fun _ => ?_
    refine (pays_forwardGas request.gas).remembers.bind fun _ => ?_
    exact pays_clearReturnData.remembers.bind fun _ => .pure _
  exact .ite ((Keeps.throw _).bind fun _ => rest) rest

theorem remembers_startCall (scheme : CallScheme) (opened : OpenedCall) :
    Keeps Remembers (startCall scheme opened) := by
  intro env a
  rw [startCall_apply]
  cases hm : callTransfer? scheme opened env a with
  | none => exact remembers_answer _ _ env a
  | some moved =>
      have transferred : a.Remembers { a with world := a.world.mapAccounts fun _ => moved } := by
        unfold callTransfer? at hm
        split at hm
        · exact .of_accounts fun h => h.transfer hm
        · exact absurd hm nofun
      dsimp only
      split
      · exact transferred.trans (remembers_answer _ _ env _)
      · exact transferred

theorem remembers_startConstruction (address : Address) (value : Word) (code : ByteArray)
    (gas : Nat) : Keeps Remembers (startConstruction address value code gas) := by
  intro env a
  rw [startConstruction_apply]
  cases hm : (begun address code a).transfer? a.frame.account address value with
  | none => exact remembers_answer _ _ env a
  | some moved =>
      refine .of_accounts fun {account key} h => ?_
      have begins : (begun address code a).IsWarm account key := h.update id
      exact begins.transfer hm

theorem remembers_claimAddress (address : Address) (value : Word) (code : ByteArray) :
    Keeps Remembers (claimAddress address value code) := by
  refine Keeps.get.bind fun s => ?_
  have counts : Keeps Remembers
      (modifyWorld (·.mapAccounts (·.countCreation s.frame.account))) :=
    keeps_modifyWorld fun a => .of_accounts fun h => h.update id
  refine counts.bind fun _ => ?_
  refine (pays_touch address).remembers.bind fun _ => Keeps.get.bind fun _ => ?_
  refine (pays_charge _).remembers.bind fun _ => Keeps.get.bind fun _ => ?_
  exact .ite (remembers_push_proceed 0) (remembers_startConstruction _ _ _ _)

theorem remembers_create (salted : Bool) : Keeps Remembers (create salted) := by
  have opens : Keeps Remembers (openCreate salted) := by
    refine remembers_demandChangeable.bind fun _ => (remembers_onFrame _).bind fun _ => ?_
    refine (pays_region _ _).remembers.bind fun _ => (pays_charge _).remembers.bind fun _ => ?_
    exact Keeps.get.bind fun _ => pays_clearReturnData.remembers.bind fun _ => .pure _
  refine opens.bind fun opened => ?_
  refine Keeps.get.bind fun _ => Keeps.bind (fun env => .pure _) fun env => ?_
  exact .ite (remembers_claimAddress _ _ _) (remembers_push_proceed 0)

/-! ## The whole of an instruction -/

/-- Every operation but self-destruction remembers what has been touched. -/
theorem remembers_perform {op : Operation} (h : op ≠ .selfDestruct) :
    Keeps Remembers (perform op) := by
  cases op with
  | stop => exact .pure _
  | frame op =>
      exact Keeps.bind (fun env => .pure _) fun _ => (remembers_onFrame _).bind fun _ => .pure _
  | selfBalance => exact Keeps.get.bind fun _ => remembers_push_proceed _
  | account r => exact remembers_readAccount r
  | copyAccountCode => exact remembers_copyAccountCode
  | loadSlot => exact remembers_loadSlot
  | storeSlot => exact remembers_storeSlot
  | loadTransient => exact remembers_loadTransient
  | storeTransient => exact remembers_storeTransient
  | log topics => exact remembers_writeLog topics
  | create salted => exact remembers_create salted
  | call scheme => exact (remembers_openCall scheme).bind (remembers_startCall scheme)
  | «return» => exact (remembers_onFrame _).bind fun _ => .pure _
  | revert => exact (remembers_onFrame _).bind fun _ => .throw _
  | invalid => exact .throw _
  | selfDestruct => exact absurd rfl h

/-- An instruction remembers what has been touched, unless it is a self-destruction that is carried
out. -/
theorem remembers_instruction
    (spared : a.operation? = some .selfDestruct → ∀ next b, instruction env a ≠ .ok next b) :
    a.Remembers (stateAfter (instruction env a)) := by
  obtain ⟨op, starts, performed⟩ | ⟨fault, f, failed, _⟩ := instruction_apply env a
  · have started : a.Remembers (a.started op) := .of_world rfl
    by_cases hd : op = .selfDestruct
    · subst hd
      have spared := spared starts.operation
      rw [performed] at spared ⊢
      exact started.trans (remembers_selfDestruct spared)
    · rw [performed]
      exact started.trans (remembers_perform hd env _)
  · rw [failed]
    exact .of_world rfl

end Action

end EvmHarness
