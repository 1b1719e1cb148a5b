import EvmHarness.Proofs.CodeAttribution
import EvmHarness.Proofs.Rollback
set_option autoImplicit false

/-!
# Deployed code is not replaced

A creation looks at its address when it begins and puts code there when it ends.  In between any
program may run.  As long as that program does not destroy the account, the record under
construction stays in use, so no other creation begins at its address, and it holds no code when the
creation ends.  Where the account is destroyed in between, the address is free again: another
creation can deploy code there, and the first one replaces it.
-/

namespace EvmHarness

namespace Accounts

variable {xs ys : Accounts} {a b : Address} {sites : Address → Prop}

/-- The record at the address is kept for a creation: it is in use and holds no code. -/
structure Reserved (xs : Accounts) (a : Address) : Prop where
  counted : (xs.read a).nonce ≠ 0
  codeless : (xs.read a).hasNoCode = true

theorem Reserved.isTaken (h : xs.Reserved a) : (xs.read a).isTaken = true :=
  Account.isTaken_iff.2 (.inl h.counted)

theorem Reserved.inheritsAt (h : xs.Reserved a) (inherits : xs.InheritsAt ys a) :
    ys.Reserved a where
  counted := inherits.record.counted h.counted
  codeless := by
    rw [Account.hasNoCode, inherits.record.code]
    exact h.codeless

theorem Reserved.evolves (h : xs.Reserved a) (evolves : xs.Evolves sites ys) : ys.Reserved a :=
  h.inheritsAt (evolves.inherits a (.inl h.isTaken))

theorem Reserved.destroy (h : xs.Reserved a) (other : b ≠ a) (beneficiary : Address) :
    (xs.destroy b beneficiary).Reserved a :=
  h.inheritsAt (xs.inheritsAt_destroy beneficiary other)

/-- Code that is put at another address leaves the record alone. -/
theorem Reserved.deposit (h : xs.Reserved a) (other : b ≠ a) (code : ByteArray) :
    (xs.update b (·.withCode code)).Reserved a :=
  h.inheritsAt (xs.inheritsAt_update fun same => absurd same other)

/-- The record of an account whose creation begins is kept for it. -/
theorem reserved_of_begins {creator : Address} {value : Word} {code : ByteArray}
    (h : Action.Begins creator a value code xs ys) : ys.Reserved a := by
  have codeless : (xs.read a).hasNoCode = true := by
    have free := isTaken_eq_false h.free
    simp only [Account.isTaken, Bool.or_eq_false_iff, Bool.not_eq_false'] at free
    exact free.2
  have begun : Accounts.Reserved (xs.update a (·.underConstruction code)) a := by
    refine ⟨?_, ?_⟩
    · rw [read_update, if_pos rfl]
      exact Nat.one_ne_zero
    · rw [read_update, if_pos rfl]
      exact codeless
  exact begun.inheritsAt (inheritsAt_transfer h.covered a)

end Accounts

namespace Machine

variable {tx : Transaction} {gasLimit : UInt64} {before m : Machine} {a : Address}

/-! ## An account under construction -/

/-- The record at the address is kept for the creation under way, unless it is gone. -/
def Constructing (gone : Prop) (a : Address) (xs : Accounts) : Prop := gone ∨ xs.Reserved a

/-- A caller would bring the record back, and does not wait for code to put there itself. -/
def WaitsElsewhere (gone : Prop) (a : Address) (s : Suspended) : Prop :=
  gone ∨ s.reversion.Reserved a ∧ s.purpose ≠ .create a

variable {gone : Prop}

/-- An instruction that gives a value replaces no code, or it destroys the account of the frame. -/
theorem evolves_or_destroys {next : Next} {b : Active}
    (h : Action.instruction m.environment m.active = .ok next b) :
    (∃ sites, m.accounts.Evolves sites b.world.accounts) ∨
      m.active.operation? = some .selfDestruct ∧
        ∃ beneficiary, b.world.accounts = m.accounts.destroy m.frame.account beneficiary := by
  obtain ⟨_, _, _, leads⟩ | ⟨_, hop, beneficiary, c, opens, rfl⟩ :=
    Action.instruction_leads_or_destroys h
  · exact .inl ⟨_, leads.world.evolves⟩
  · have accounts : c.world.accounts = m.accounts := opens.accounts
    exact .inr ⟨hop, beneficiary, by rw [← accounts]; rfl⟩

/-- An instruction that gives a value keeps the record unless it destroys the account. -/
theorem reserved_of_instruction {next : Next} {b : Active} (running : m.result = none)
    (h : Action.instruction m.environment m.active = .ok next b)
    (reserved : m.accounts.Reserved a) : m.Destroys a ∨ b.world.accounts.Reserved a := by
  obtain ⟨_, evolves⟩ | ⟨hop, beneficiary, left⟩ := evolves_or_destroys h
  · exact .inr (reserved.evolves evolves)
  · by_cases own : m.frame.account = a
    · exact .inl ⟨running, hop, own, _, _, h⟩
    · rw [left]
      exact .inr (reserved.destroy own beneficiary)

/-- The next instruction keeps the record as long as the account counts as gone once it is
destroyed. -/
theorem carries_constructing (running : m.result = none) (destroys : m.Destroys a → gone) :
    m.CarriesEach (fun b => Constructing gone a b.world.accounts) (WaitsElsewhere gone a) where
  ok ha h := ha.elim .inl fun reserved =>
    (reserved_of_instruction running h reserved).imp_left destroys
  error ha h := ha.imp_right fun reserved =>
    reserved.evolves (Action.instruction_eq_error h).2.evolves
  enter := by
    intro callee purpose reversion b ha h
    have enters := Action.instruction_enters h
    refine ⟨ha.imp_right fun reserved => reserved.evolves enters.sites.evolves, ?_⟩
    apply ha.imp_right
    intro reserved
    have before : reversion.Reserved a := by
      rw [enters.restores]
      exact reserved.evolves (evolves_restored _ _)
    refine ⟨before, ?_⟩
    -- a creation begins only where the record is not in use
    intro same
    have same : purpose = .create a := same
    cases Action.instruction_knows h with
    | record _ _ _ => exact absurd same nofun
    | construction begins =>
        obtain rfl := Purpose.create.inj same
        have free := Accounts.isTaken_eq_false begins.free
        rw [before.isTaken] at free
        exact Bool.false_ne_true free.symm
  resume := by
    intro outcome b s f hs hb runs
    obtain gone | ⟨before, elsewhere⟩ := hs
    · exact .inl gone
    obtain ⟨_, heq⟩ | ⟨address, code, hcreate, _, heq⟩ | heq :=
      s.settled_cases b.frame.gas outcome b.world
    · rw [heq]
      exact hb
    · rw [heq]
      have other : address ≠ a := fun same => elsewhere (same ▸ hcreate)
      exact hb.imp_right fun reserved => reserved.deposit other code
    · rw [heq]
      exact .inr before

/-! ## A creation that ends -/

/-- While a creation is under way, the record of its account is kept for it until the account is
destroyed. -/
theorem reserved_while_constructing (h : tx.prepare gasLimit before = .ok m) {n : Nat}
    {s : Suspended} {rest : List Suspended} (callers : (step^[n] m).suspended = s :: rest)
    (creates : s.purpose = .create a) :
    (∃ k < n, (step^[k] m).Destroys a ∧ ∀ i, k ≤ i → i ≤ n → s :: rest <:+ (step^[i] m).suspended) ∨
      (step^[n] m).accounts.Reserved a := by
  have top : s :: rest <:+ (step^[n] m).suspended := callers ▸ List.suffix_rfl
  obtain ⟨j, hj, ⟨running, below, callee, purpose, reversion, b, hs, entered⟩, kept⟩ :=
    waiting_since h top
  -- the creation began with a record that is kept for it
  have start : Accounts.Reserved b.world.accounts a := by
    have hpurpose : purpose = .create a := by
      rw [hs] at creates
      exact creates
    cases Action.instruction_knows entered with
    | record _ _ _ => exact absurd hpurpose nofun
    | construction begins =>
        obtain rfl := Purpose.create.inj hpurpose
        exact Accounts.reserved_of_begins begins
  -- and since then the run has stayed above its caller
  let gone : Prop := ∃ k, j < k ∧ k < n ∧ (step^[k] m).Destroys a
  have first : (step^[j] m).step.Holds (.uniform
      (fun b => Constructing gone a b.world.accounts) (WaitsElsewhere gone a)) (s :: rest) := by
    have holds := holds_entered (I := .uniform
      (fun b => Constructing gone a b.world.accounts) (WaitsElsewhere gone a))
      running entered (.inr start)
    rw [← hs, below] at holds
    exact holds
  obtain ⟨d, rfl⟩ := Nat.exists_eq_add_of_lt hj
  have later (k : Nat) : step^[k] (step^[j] m).step = step^[j + k + 1] m := by
    rw [← Function.iterate_succ_apply, ← Function.iterate_add_apply]
    congr 1
    omega
  have room : (step^[j] m).step.Room := ((Reachable.prepared h).iterate j).stepped.room
  have holds := first.iterate room d
    (fun k hk alive => by
      rw [later] at alive ⊢
      exact (carries_constructing alive fun destroys =>
        ⟨j + k + 1, by omega, by omega, destroys⟩).carries)
    (fun k hk => by
      rw [later]
      exact (kept (j + k + 1) (by omega) (by omega)).length_le)
  rw [later] at holds
  obtain ⟨k, hjk, hkn, destroys⟩ | reserved := holds.active
  · exact .inl ⟨k, hkn, destroys, fun i hki hi => kept i (Nat.lt_of_lt_of_le hjk hki) hi⟩
  · exact .inr reserved

/-- A frame that ends leaves no code in a record kept for a creation, even where it destroys the
account. -/
theorem codeless_at_end {outcome : Outcome} {b : Active} (ends : m.Ends outcome b)
    (reserved : m.accounts.Reserved a) : (b.world.accounts.read a).hasNoCode = true := by
  cases ends with
  | halt h =>
      obtain ⟨_, evolves⟩ | ⟨_, beneficiary, left⟩ := evolves_or_destroys h
      · exact (reserved.evolves evolves).codeless
      · rw [left]
        by_cases own : m.frame.account = a
        · rw [own, Accounts.read_destroy_self]
          rfl
        · exact (reserved.destroy own beneficiary).codeless
  | fault h => exact (reserved.evolves (Action.instruction_eq_error h).2.evolves).codeless

/-- The next step ends a creation in success, in some state, and puts its output into the record of
the new account. -/
structure Deposits (m : Machine) (a : Address) (output : ByteArray) (b : Active) : Prop where
  ends : m.Ends (.success output) b
  creates : m.suspended.head?.map Suspended.purpose = some (.create a)
  paid : ∃ left w, b.world.deposit a output b.frame.gas = .ok (left, w)

/-- What a step leaves that deposits code. -/
theorem Deposits.accounts_step {output : ByteArray} {b : Active} (reachable : m.Reachable)
    (deposits : m.Deposits a output b) :
    m.step.accounts = b.world.accounts.update a (·.withCode output) := by
  obtain ⟨ends, creates, left, w, paid⟩ := deposits
  obtain ⟨s, head, hs⟩ := Option.map_eq_some_iff.1 creates
  obtain ⟨rest, callers⟩ := List.head?_eq_some_iff.1 head
  have running := reachable.running_of_suspended callers
  have room : s.HasRoom := reachable.room s (by rw [callers]; exact List.mem_cons_self)
  obtain ⟨f, resumed, _⟩ := s.resume_eq_ok room b.frame.gas (.success output) b.world
  have world : s.settled b.frame.gas (.success output) b.world =
      b.world.mapAccounts (·.update a (·.withCode output)) := by
    unfold Suspended.settled
    rw [hs]
    dsimp only
    rw [paid]
    exact (Suspended.deposit_eq_ok paid).2.2
  rw [step_of_ends running ends, callers, unwind_of_resume_ok resumed, world]
  rfl

/-- Whenever the output of a creation becomes the code of the new account, the record there holds
no code in that moment, or there is none.  So deployed code is not replaced, unless the account has
been destroyed while the creation was under way: then another creation can have deployed code at its
address in the meantime. -/
theorem deployed_code_not_replaced (h : tx.prepare gasLimit before = .ok m) (n : Nat)
    {output : ByteArray} {b : Active} (deposits : (step^[n] m).Deposits a output b) :
    (step^[n + 1] m).accounts = b.world.accounts.update a (·.withCode output) ∧
      ((∀ record, b.world.accounts[a]? = some record → record.hasNoCode = true) ∨
        ∃ k < n, (step^[k] m).Destroys a ∧
          ∀ i, k ≤ i → i ≤ n → (step^[n] m).suspended <:+ (step^[i] m).suspended) := by
  have reachable : (step^[n] m).Reachable := (Reachable.prepared h).iterate n
  obtain ⟨s, head, hs⟩ := Option.map_eq_some_iff.1 deposits.creates
  obtain ⟨rest, callers⟩ := List.head?_eq_some_iff.1 head
  constructor
  · rw [Function.iterate_succ_apply']
    exact deposits.accounts_step reachable
  · rw [callers]
    obtain destroyed | reserved := reserved_while_constructing h callers hs
    · exact .inr destroyed
    · left
      intro record found
      have codeless := codeless_at_end deposits.ends reserved
      rw [Accounts.read_eq_of_getElem? found] at codeless
      exact codeless

/-- Whether the next step deposits code over some other code, which may be empty. -/
def depositsOver (m : Machine) (a : Address) (old new : ByteArray) : Bool :=
  m.ending?.any fun (outcome, b) =>
    outcome = .success new && m.suspended.head?.map Suspended.purpose = some (.create a) &&
      (b.world.deposit a new b.frame.gas).isOk && b.world.accounts[a]?.map (·.code) = some old

theorem deposits_of_depositsOver {old new : ByteArray} (h : m.depositsOver a old new) :
    ∃ b, m.Deposits a new b ∧ b.world.accounts[a]?.map (·.code) = some old := by
  obtain ⟨⟨outcome, b⟩, ending, checks⟩ := (Option.any_eq_true _ _).1 h
  simp only [Bool.and_eq_true, decide_eq_true_eq] at checks
  obtain ⟨⟨⟨rfl, creates⟩, paid⟩, code⟩ := checks
  refine ⟨b, ⟨ending?_eq_some.1 ending, creates, ?_⟩, code⟩
  cases deposited : b.world.deposit a new b.frame.gas with
  | ok result => exact ⟨result.1, result.2, rfl⟩
  | error fault =>
      rw [deposited] at paid
      cases paid

/-- A machine in front of a call of an account that creates another one, with one byte of code. -/
def deploying : Machine :=
  Transaction.ofFirst.opening 100000 (ofCodes
    ⟨#[0x63, 0x60, 0x01, 0x5f, 0xf3, 0x5f, 0x52, 0x60, 4, 0x60, 0x1c, 0x5f, 0xf0, 0x00]⟩
    ByteArray.empty)

/-- The creation ends with the tenth instruction, and its code is put where there was none. -/
theorem deploying_replaces_nothing :
    let a := Address.ofNonce 1 0
    ∃ b, (step^[9] deploying).Deposits a ⟨#[0]⟩ b ∧
      (step^[10] deploying).accounts = b.world.accounts.update a (·.withCode ⟨#[0]⟩) ∧
      ∀ record, b.world.accounts[a]? = some record → record.hasNoCode = true := by
  intro a
  have replaced : (step^[9] deploying).depositsOver a ByteArray.empty ⟨#[0]⟩ = true := by
    decide +kernel
  obtain ⟨b, deposits, _⟩ := deposits_of_depositsOver replaced
  have spared : ∀ k < 9, (step^[k] deploying).active.operation? ≠ some .selfDestruct := by
    decide +kernel
  obtain ⟨accounts, codeless | ⟨k, hk, ⟨_, destroys, _⟩, _⟩⟩ :=
    deployed_code_not_replaced (Transaction.prepare_ofFirst _ _) 9 deposits
  · exact ⟨b, deposits, accounts, codeless⟩
  · exact absurd destroys (spared k hk)

/-- A factory that creates an account whose initial code destroys its own account and the second
one, has the factory create the account again and then returns two bytes of code.  When the initial
code runs the second time, it finds the second account gone and returns one byte. -/
def redeployer : Machine :=
  ofCodes
    ⟨#[0x60, 0x2c, 0x60, 0x0d, 0x5f, 0x39, 0x5f, 0x60, 0x2c, 0x5f, 0x5f, 0xf5, 0, 0x60, 2, 0x3b,
      0x60, 0x0a, 0x57, 0x60, 1, 0x5f, 0xf3, 0x5b, 0x5f, 0x5f, 0x5f, 0x5f, 0x60, 2, 0x5a, 0xf4,
      0x50, 0x5f, 0x5f, 0x5f, 0x5f, 0x5f, 0x60, 2, 0x5a, 0xf1, 0x50, 0x5f, 0x5f, 0x5f, 0x5f, 0x5f,
      0x60, 1, 0x5a, 0xf1, 0x50, 0x60, 2, 0x5f, 0xf3]⟩ ⟨#[0x33, 0xff]⟩

/-- The machine in front of the first instruction of a call of the factory. -/
def redeploying : Machine := Transaction.ofFirst.opening 200000 redeployer

/-- When the outer creation ends, the code that the inner one has deployed at the same address is
replaced. -/
theorem redeploying_replaces_code :
    let a : Address := 0xc6e6f68f816ebad3cbf0c9b2e1c8e127d349d101
    Transaction.ofFirst.prepare 200000 redeployer = .ok redeploying ∧
      ∃ b, (step^[63] redeploying).Deposits a ⟨#[0, 0]⟩ b ∧
        b.world.accounts[a]?.map (·.code) = some ⟨#[0]⟩ :=
  ⟨Transaction.prepare_ofFirst _ _, deposits_of_depositsOver (by decide +kernel)⟩

end Machine

end EvmHarness
