import EvmHarness.Proofs.CodeAttribution
import EvmHarness.Proofs.OutermostFrame
set_option autoImplicit false

/-!
# What is reported of an outcome

An outcome alone decides what is reported of it: a success and an expected failure are handed out,
any other failure is refused by its class.  After a successful creation the code of the new account
is put in place, and its record looked up once more.  A record stays where it is until the account
destroys itself, so a creation is stranded, and its outcome lost, only where the new account has
done that.
-/

namespace EvmHarness

/-- What is to be reported of an outcome. -/
def Outcome.verdict : Outcome → Except TxFault Outcome
  | success output => .ok (success output)
  | failure fault =>
    match fault.severity with
    | .revert => .ok (failure fault)
    | .illegal => .error (.illegal fault)
    | .unknown => .error (.unclassified fault)

/-- What an action reports, whatever the state that it leaves. -/
def reported {ε σ α : Type} : EStateM.Result ε σ α → Except ε α
  | .ok a _ => .ok a
  | .error e _ => .error e

/-! ## A record stays until it is destroyed -/

namespace World

variable {w w' : World} {self a : Address} {isStatic : Bool} {sites : Address → Prop}

theorem Alters.mem (h : w.Alters self isStatic sites w') (ha : a ∈ w.accounts) :
    a ∈ w'.accounts := by
  cases h with
  | touch b => exact ha
  | log topics data changeable => exact ha
  | storage s slots => exact (Accounts.mem_update _ _ _ _).2 (.inr ha)
  | count changeable countable => exact (Accounts.mem_update _ _ _ _).2 (.inr ha)
  | construct address code site changeable free => exact (Accounts.mem_update _ _ _ _).2 (.inr ha)
  | transfer receiver value moved harmless covered =>
      exact (Accounts.inheritsAt_transfer covered a).present ha

theorem Reaches.mem (h : w.Reaches self isStatic sites w') (ha : a ∈ w.accounts) :
    a ∈ w'.accounts := by
  induction h with
  | refl => exact ha
  | tail _ alters ih => exact alters.mem ih

end World

namespace Machine

variable {tx : Transaction} {gasLimit : UInt64} {before m : Machine} {a : Address}

/-- An instruction that gives a value keeps every record but that of an account it destroys. -/
theorem mem_of_instruction {next : Next} {b : Active} (running : m.result = none)
    (h : Action.instruction m.environment m.active = .ok next b) (ha : a ∈ m.accounts) :
    m.Destroys a ∨ a ∈ b.world.accounts := by
  obtain ⟨_, _, _, leads⟩ | ⟨_, hop, beneficiary, c, opens, rfl⟩ :=
    Action.instruction_leads_or_destroys h
  · exact .inr (leads.world.mem ha)
  · have accounts : c.world.accounts = m.accounts := opens.accounts
    by_cases own : m.frame.account = a
    · exact .inl ⟨running, hop, own, _, _, h⟩
    · right
      show a ∈ c.world.accounts.destroy m.frame.account beneficiary
      rw [accounts]
      exact (Accounts.inheritsAt_destroy _ beneficiary own).present ha

/-- There is a record at the address, unless it is gone. -/
def KeepsRecord (gone : Prop) (a : Address) (xs : Accounts) : Prop := gone ∨ a ∈ xs

/-- An instruction keeps the record as long as the account counts as gone once it is destroyed. -/
theorem carries_record {gone : Prop} (running : m.result = none) (destroys : m.Destroys a → gone) :
    m.CarriesEach (fun b => KeepsRecord gone a b.world.accounts)
      (fun s => KeepsRecord gone a s.reversion) where
  ok ha h := ha.elim .inl fun kept => (mem_of_instruction running h kept).imp_left destroys
  error ha h := ha.imp_right (Action.instruction_eq_error h).2.mem
  enter := by
    intro callee purpose reversion b ha h
    have enters := Action.instruction_enters h
    refine ⟨ha.imp_right enters.sites.mem, ?_⟩
    show KeepsRecord gone a reversion
    rw [enters.restores]
    exact ha.imp_right ((evolves_restored _ _).inherits a (.inr id)).present
  resume := by
    intro outcome b s f hs hb runs
    obtain ⟨_, heq⟩ | ⟨address, code, _, _, heq⟩ | heq :=
      s.settled_cases b.frame.gas outcome b.world
    · rw [heq]
      exact hb
    · rw [heq]
      exact hb.imp_right fun kept => (Accounts.mem_update _ _ _ _).2 (.inr kept)
    · rw [heq]
      exact hs

/-- A record that a transaction starts with stays until its account is destroyed. -/
theorem record_kept_until_destroyed (h : tx.prepare gasLimit before = .ok m)
    (present : a ∈ m.accounts) (n : Nat) :
    (∃ k < n, (step^[k] m).Destroys a) ∨ a ∈ (step^[n] m).accounts := by
  have holds : (step^[n] m).Holds (.uniform
      (fun b => KeepsRecord (∃ k < n, (step^[k] m).Destroys a) a b.world.accounts)
      (fun s => KeepsRecord (∃ k < n, (step^[k] m).Destroys a) a s.reversion)) [] := by
    have start : KeepsRecord (∃ k < n, (step^[k] m).Destroys a) a m.accounts := .inr present
    apply holds_run h start n
    intro k hk running
    exact (carries_record running fun destroys => ⟨k, hk, destroys⟩).carries
  exact holds.active

/-- The destination has a record when a transaction starts. -/
theorem destination_mem (h : tx.prepare gasLimit before = .ok m) : tx.destination ∈ m.accounts := by
  obtain ⟨_, rfl⟩ := Transaction.prepare_eq_ok.1 h
  exact tx.mem_openingAccounts before.accounts

end Machine

/-! ## The judgement -/

namespace HarnessM

variable {tx : Transaction} {gasLimit : UInt64} {before m : Machine}

theorem reported_conclude_failure (tx : Transaction) (fault : Fault) (m : Machine) :
    reported (conclude refuse tx (.failure fault) m) = (Outcome.failure fault).verdict := by
  cases hf : fault.severity <;> simp [conclude, refuse, Outcome.verdict, hf] <;> rfl

theorem reported_conclude_call (isCall : tx.isCreate = false) (output : ByteArray) (m : Machine) :
    reported (conclude refuse tx (.success output) m) = .ok (.success output) := by
  unfold Transaction.isCreate at isCall
  unfold conclude
  cases hx : tx.action with
  | call data => rfl
  | create initCode => simp [hx] at isCall

theorem replaceCode_apply (address : Address) (code : ByteArray) (m : Machine) :
    replaceCode address code m =
      match m.accounts[address]? with
      | none => .error (.missingAccount address) m
      | some record =>
        .ok () (m.mapWorld (·.mapAccounts (·.insert address (record.withCode code)))) := by
  unfold replaceCode
  rw [ofExcept_apply]
  cases m.accounts[address]? <;> rfl

/-- An account with a record can be loaded. -/
theorem load_eq_ok {address : Address} {record : Account}
    (found : m.accounts[address]? = some record) : ∃ n, load address m = .ok () n := by
  unfold load Machine.load
  rw [ofExcept_apply, found]
  exact ⟨_, rfl⟩

/-- A successful creation is reported where the new account still has a record. -/
theorem reported_conclude_create (isCreate : tx.isCreate = true) (code : ByteArray)
    (own : m.frame.account = tx.destination) :
    reported (conclude refuse tx (.success code) m) =
      match m.accounts[tx.destination]? with
      | none => .error (.missingAccount tx.destination)
      | some _ => .ok (.success code) := by
  unfold Transaction.isCreate at isCreate
  unfold conclude
  cases hx : tx.action with
  | call data => simp [hx] at isCreate
  | create initCode =>
      have owns : replaceOwnCode code m = replaceCode tx.destination code m := by rw [← own]; rfl
      rw [replaceCode_apply] at owns
      show reported (EStateM.bind (replaceOwnCode code) _ m) = _
      rw [EStateM.bind, owns]
      cases m.accounts[tx.destination]? with
      | none => rfl
      | some record =>
          -- the record that is looked up is the one that was just written
          have found : (m.mapWorld (·.mapAccounts (·.insert tx.destination
              (record.withCode code)))).accounts[tx.destination]? = some (record.withCode code) :=
            Std.ExtTreeMap.getElem?_insert_self
          obtain ⟨n, loads⟩ := load_eq_ok found
          show reported (EStateM.bind (load tx.destination) _ _) = _
          rw [EStateM.bind, loads]
          rfl

/-- A creation that succeeds is stranded: the new account has no record in the end. -/
def Strands (tx : Transaction) (m : Machine) : Prop :=
  tx.isCreate = true ∧ m.run.1.isSuccess = true ∧ tx.destination ∉ m.run.2.accounts

/-- A transaction whose value the sender has is prepared and run to a result, and what is reported
is the verdict on its outcome: a success and an expected failure themselves, and any other failure
as a fault of its class.  The one exception is a creation that is stranded: a success is then
reported as a missing account.  That takes a self-destruction of the new account in the run. -/
theorem outcome_reported_unless_stranded (gasLimit : UInt64) (tx : Transaction) (before : Machine)
    (covered : tx.value ≤ before.accounts.balance tx.sender) :
    ∃ m, tx.prepare gasLimit before = .ok m ∧ m.run.2.result = some m.run.1 ∧
      (¬ Strands tx m → reported (execute gasLimit tx before) = m.run.1.verdict) ∧
      (Strands tx m →
        reported (execute gasLimit tx before) = .error (.missingAccount tx.destination) ∧
        ∃ k < m.stepBound, (Machine.step^[k] m).Destroys tx.destination) := by
  have h : tx.prepare gasLimit before = .ok (tx.opening gasLimit before) :=
    Transaction.prepare_eq_ok.2 ⟨covered, rfl⟩
  generalize tx.opening gasLimit before = m at h
  obtain ⟨runs, result, free⟩ := Machine.run_ends h
  refine ⟨m, h, result, ?_, ?_⟩
  · intro spared
    rw [execute_apply, h]
    dsimp only
    cases hout : m.run.1 with
    | failure fault => exact reported_conclude_failure tx fault _
    | success code =>
        cases isCreate : tx.isCreate with
        | false => exact reported_conclude_call isCreate code _
        | true =>
            have kept : tx.destination ∈ m.run.2.accounts := by
              by_contra missing
              exact spared ⟨isCreate, by rw [hout]; rfl, missing⟩
            rw [reported_conclude_create isCreate code free.account,
              Std.ExtTreeMap.getElem?_eq_some_getElem kept]
            rfl
  · rintro ⟨isCreate, success, missing⟩
    obtain ⟨code, hout⟩ := (Outcome.isSuccess_iff _).1 success
    constructor
    · rw [execute_apply, h]
      dsimp only
      rw [hout, reported_conclude_create isCreate code free.account,
        Std.ExtTreeMap.getElem?_eq_none missing]
    · rw [runs] at missing
      have present := Machine.destination_mem h
      exact (Machine.record_kept_until_destroyed h present _).resolve_right missing

/-- A creation whose initial code returns one byte of code. -/
def depositing : Transaction := .ofCreate 3 2 ⟨#[0x60, 1, 0x5f, 0xf3]⟩

theorem depositing_reported :
    depositing.value ≤ Machine.initial.accounts.balance depositing.sender ∧
      reported (execute 100000 depositing Machine.initial) = .ok (.success ⟨#[0]⟩) := by
  have covered : depositing.value ≤ Machine.initial.accounts.balance depositing.sender :=
    BitVec.le_def.2 (Nat.zero_le _)
  obtain ⟨m, h, _, reports, _⟩ :=
    outcome_reported_unless_stranded 100000 depositing Machine.initial covered
  obtain ⟨_, rfl⟩ := Transaction.prepare_eq_ok.1 h
  have outcome : (depositing.opening 100000 Machine.initial).run.1 = .success ⟨#[0]⟩ := by
    decide +kernel
  have kept : depositing.destination ∈
      (depositing.opening 100000 Machine.initial).run.2.accounts := by
    decide +kernel
  refine ⟨covered, ?_⟩
  rw [reports fun strands => strands.2.2 kept, outcome]
  rfl

/-- A creation whose initial code destroys the new account. -/
def selfDestroying : Transaction := .ofCreate 3 2 ⟨#[0x33, 0xff]⟩

/-- Its outcome is a success, and what is reported is that there is no account. -/
theorem selfDestroying_reported_missing :
    selfDestroying.value ≤ Machine.initial.accounts.balance selfDestroying.sender ∧
      selfDestroying.prepare 100000 Machine.initial =
        .ok (selfDestroying.opening 100000 Machine.initial) ∧
      (selfDestroying.opening 100000 Machine.initial).run.1 = .success ByteArray.empty ∧
      reported (execute 100000 selfDestroying Machine.initial) = .error (.missingAccount 2) ∧
      (Outcome.success ByteArray.empty).verdict = .ok (.success ByteArray.empty) := by
  have covered : selfDestroying.value ≤ Machine.initial.accounts.balance selfDestroying.sender :=
    BitVec.le_def.2 (Nat.zero_le _)
  have prepared : selfDestroying.prepare 100000 Machine.initial =
      .ok (selfDestroying.opening 100000 Machine.initial) :=
    Transaction.prepare_eq_ok.2 ⟨covered, rfl⟩
  have outcome : (selfDestroying.opening 100000 Machine.initial).run.1 =
      .success ByteArray.empty := by
    decide +kernel
  have own : (selfDestroying.opening 100000 Machine.initial).run.2.frame.account = 2 := by
    decide +kernel
  have gone : (selfDestroying.opening 100000 Machine.initial).run.2.accounts[(2 : Address)]? =
      none := by
    decide +kernel
  refine ⟨covered, prepared, outcome, ?_, rfl⟩
  rw [execute_apply, prepared]
  dsimp only
  rw [outcome, reported_conclude_create rfl _ own]
  show (match (selfDestroying.opening 100000 Machine.initial).run.2.accounts[(2 : Address)]? with
    | none => .error (.missingAccount 2)
    | some _ => .ok (.success ByteArray.empty) : Except TxFault Outcome) = _
  rw [gone]

end HarnessM

end EvmHarness
