import EvmHarness.Proofs.Conclusion
import EvmHarness.Proofs.RunInvariant
import EvmHarness.Proofs.Total
set_option autoImplicit false

/-!
# Value is never created

The sum of all balances never exceeds what it was before the transaction, in the running world as
in the records that any suspended caller would bring back.  Where that sum is a word, no credit
stops short, and the only value that gets lost once the run has begun is that of an account that is
destroyed for itself.
-/

namespace EvmHarness

/-! ## One change to the world -/

namespace World

variable {w w' : World} {self : Address} {isStatic : Bool} {sites : Address → Prop}

theorem Alters.total_le (h : w.Alters self isStatic sites w') :
    w'.accounts.total ≤ w.accounts.total := by
  cases h with
  | touch a => exact Nat.le_refl _
  | log topics data changeable => exact Nat.le_refl _
  | storage s slots => exact Nat.le_of_eq (Accounts.total_update_of_balance _ _ rfl)
  | count changeable countable => exact Nat.le_of_eq (Accounts.total_update_of_balance _ _ rfl)
  | construct address code site changeable free =>
      exact Nat.le_of_eq (Accounts.total_update_of_balance _ _ rfl)
  | transfer receiver value moved harmless covered => exact Accounts.total_transfer_le covered

theorem Alters.total_eq (h : w.Alters self isStatic sites w') (fits : w.accounts.total < 2 ^ 256) :
    w'.accounts.total = w.accounts.total := by
  cases h with
  | touch a => rfl
  | log topics data changeable => rfl
  | storage s slots => exact Accounts.total_update_of_balance _ _ rfl
  | count changeable countable => exact Accounts.total_update_of_balance _ _ rfl
  | construct address code site changeable free => exact Accounts.total_update_of_balance _ _ rfl
  | transfer receiver value moved harmless covered => exact Accounts.total_transfer fits covered

theorem Reaches.total_le (h : w.Reaches self isStatic sites w') :
    w'.accounts.total ≤ w.accounts.total := by
  induction h with
  | refl => exact Nat.le_refl _
  | tail _ ha ih => exact Nat.le_trans ha.total_le ih

theorem Reaches.total_eq (h : w.Reaches self isStatic sites w') (fits : w.accounts.total < 2 ^ 256) :
    w'.accounts.total = w.accounts.total := by
  induction h with
  | refl => rfl
  | tail _ ha ih => exact (ha.total_eq (ih.symm ▸ fits)).trans ih

end World

/-- What a failed call or creation leaves has the same sum of balances. -/
theorem Active.total_restored (a : Active) (depth : Nat) :
    (a.restored depth).total = a.world.accounts.total := by
  unfold restored
  split
  · split
    · exact Accounts.total_update_of_balance _ _ rfl
    · rfl
  · rfl

/-- A caller goes on with the sum of balances that its callee left, or with that of its
reversion. -/
theorem Suspended.total_settled (s : Suspended) (gasLeft : Nat) (outcome : Outcome) (w : World) :
    (s.settled gasLeft outcome w).accounts.total = w.accounts.total ∨
      (s.settled gasLeft outcome w).accounts.total = s.reversion.total := by
  obtain ⟨_, hw⟩ | ⟨address, code, _, _, hw⟩ | hw := s.settled_cases gasLeft outcome w
  · exact .inl (by rw [hw])
  · refine .inl ?_
    rw [hw]
    exact Accounts.total_update_of_balance _ _ rfl
  · exact .inr (by rw [hw]; rfl)

namespace Machine

variable {m : Machine}

/-! ## One instruction -/

/-- The next instruction is a self-destruction that is carried out and that names the account of its
own frame. -/
def DestroysForItself (m : Machine) : Prop :=
  m.result = none ∧ m.active.operation? = some .selfDestruct ∧
    m.frame.stack.words.head?.map Address.ofWord = some m.frame.account ∧
      ∃ next b, Action.instruction m.environment m.active = .ok next b

theorem instruction_total_le {env : Environment} {a b : Active} {next : Next}
    (h : Action.instruction env a = .ok next b) :
    b.world.accounts.total ≤ a.world.accounts.total := by
  obtain later | ⟨_, _, beneficiary, c, opens, rfl⟩ := Action.instruction_later_or_destroys h
  · exact later.world.total_le
  · exact Nat.le_trans (Accounts.total_destroy_le _ _ _) (Nat.le_of_eq (by rw [opens.accounts]))

theorem instruction_total_eq {b : Active} {next : Next} (running : m.result = none)
    (other : ¬ m.DestroysForItself) (fits : m.accounts.total < 2 ^ 256)
    (h : Action.instruction m.environment m.active = .ok next b) :
    b.world.accounts.total = m.accounts.total := by
  obtain later | ⟨_, hop, beneficiary, c, opens, rfl⟩ := Action.instruction_later_or_destroys h
  · exact later.world.total_eq fits
  · have hother : beneficiary ≠ m.active.frame.account := by
      rintro rfl
      exact other ⟨running, hop, opens.beneficiary, _, _, h⟩
    have hc : c.world.accounts = m.accounts := opens.accounts
    have destroyed := Accounts.total_destroy (a := m.active.frame.account) (hc.symm ▸ fits) hother
    exact destroyed.trans (by rw [hc])

/-- Whatever runs, there is never more value than at the start. -/
theorem carries_total_le (total : Nat) (m : Machine) :
    m.CarriesEach (·.world.accounts.total ≤ total) (·.reversion.total ≤ total) where
  ok ha h := Nat.le_trans (instruction_total_le h) ha
  error ha h := Nat.le_trans (Action.instruction_error_later h).world.total_le ha
  enter := by
    intro callee purpose reversion b ha h
    have restored := (Action.instruction_enters h).restores
    have hb := instruction_total_le h
    refine ⟨Nat.le_trans hb ha, ?_⟩
    show reversion.total ≤ total
    rw [restored, Active.total_restored]
    exact ha
  resume := by
    intro outcome b s f hs hb runs
    obtain htotal | htotal := s.total_settled b.frame.gas outcome b.world
    · exact Nat.le_trans (Nat.le_of_eq htotal) hb
    · exact Nat.le_trans (Nat.le_of_eq htotal) hs

/-- Where all value fits into a word, an instruction keeps it, unless an account is destroyed for
itself. -/
theorem carries_total_eq {total : Nat} (fits : total < 2 ^ 256) (running : m.result = none)
    (other : ¬ m.DestroysForItself) :
    m.CarriesEach (·.world.accounts.total = total) (·.reversion.total = total) where
  ok := by
    intro next b ha h
    exact (instruction_total_eq running other (ha ▸ fits) h).trans ha
  error := by
    intro fault b ha h
    exact ((Action.instruction_error_later h).world.total_eq (ha ▸ fits)).trans ha
  enter := by
    intro callee purpose reversion b ha h
    have restored := (Action.instruction_enters h).restores
    have hb := instruction_total_eq running other (ha ▸ fits) h
    refine ⟨hb.trans ha, ?_⟩
    show reversion.total = total
    rw [restored, Active.total_restored]
    exact ha
  resume := by
    intro outcome b s f hs hb runs
    obtain htotal | htotal := s.total_settled b.frame.gas outcome b.world
    · exact htotal.trans hb
    · exact htotal.trans hs

/-! ## The whole run -/

variable {tx : Transaction} {gasLimit : UInt64} {before : Machine}

theorem total_iterate_le (h : tx.prepare gasLimit before = .ok m) (n : Nat) :
    (step^[n] m).accounts.total ≤ m.accounts.total := by
  have holds : (step^[n] m).Holds (.uniform (·.world.accounts.total ≤ m.accounts.total)
      (·.reversion.total ≤ m.accounts.total)) [] :=
    holds_run h (Nat.le_refl _) n fun _ _ _ => (carries_total_le _ _).carries
  exact holds.active

theorem total_iterate_eq (h : tx.prepare gasLimit before = .ok m)
    (fits : m.accounts.total < 2 ^ 256) (n : Nat)
    (other : ∀ k < n, ¬ (step^[k] m).DestroysForItself) :
    (step^[n] m).accounts.total = m.accounts.total := by
  have holds : (step^[n] m).Holds (.uniform (·.world.accounts.total = m.accounts.total)
      (·.reversion.total = m.accounts.total)) [] :=
    holds_run h rfl n fun k hk running => (carries_total_eq fits running (other k hk)).carries
  exact holds.active

end Machine

/-! ## The end of a transaction -/

/-- Other code for an account moves no value. -/
theorem HarnessM.Recoded.total {xs ys : Accounts} (h : Recoded xs ys) : ys.total = xs.total := by
  obtain rfl | ⟨a, record, code, hr, rfl⟩ := h
  · rfl
  · have replaced := Accounts.total_insert xs a (record.withCode code)
    have hbalance : xs.balance a = (record.withCode code).balance := by
      rw [Accounts.balance, Accounts.read_eq_of_getElem? hr]
      rfl
    rw [hbalance] at replaced
    exact Nat.add_right_cancel replaced

namespace Machine

/-- No state of an execution holds more value than there was before.  If that is less than a word
can hold, a prepared transaction holds all of it but the balance that a creation replaces, and that
value stays the same in every state as long as no account is destroyed for itself. -/
theorem value_never_created (gasLimit : UInt64) (tx : Transaction) (before : Machine) :
    (∀ m, tx.prepare gasLimit before = .ok m →
        ∀ n, (step^[n] m).accounts.total ≤ before.accounts.total) ∧
      (stateAfter (HarnessM.execute gasLimit tx before)).accounts.total ≤ before.accounts.total ∧
      (before.accounts.total < 2 ^ 256 → ∀ m, tx.prepare gasLimit before = .ok m →
        m.accounts.total + tx.replaced before.accounts = before.accounts.total ∧
          (∀ n, (∀ k < n, ¬ (step^[k] m).DestroysForItself) →
            (step^[n] m).accounts.total = m.accounts.total) ∧
          ((∀ k, ¬ (step^[k] m).DestroysForItself) →
            (stateAfter (HarnessM.execute gasLimit tx before)).accounts.total =
              m.accounts.total)) := by
  have never_more : ∀ m, tx.prepare gasLimit before = .ok m →
      ∀ n, (step^[n] m).accounts.total ≤ before.accounts.total := by
    intro m h n
    have never_grows := total_iterate_le h n
    obtain ⟨covered, rfl⟩ := Transaction.prepare_eq_ok.1 h
    exact Nat.le_trans never_grows (Transaction.total_openingAccounts_le covered)
  -- the code of a creation is put in place after the last step
  have executed : ∀ m, tx.prepare gasLimit before = .ok m → ∃ n,
      (stateAfter (HarnessM.execute gasLimit tx before)).accounts.total =
        (step^[n] m).accounts.total := by
    intro m h
    exact ⟨m.stepBound, (HarnessM.recoded_execute h).total⟩
  refine ⟨never_more, ?_, fun fits m h => ?_⟩
  · cases h : tx.prepare gasLimit before with
    | error fault =>
        rw [HarnessM.execute_apply, h]
        exact Nat.le_refl _
    | ok m =>
        obtain ⟨n, hn⟩ := executed m h
        rw [hn]
        exact never_more m h n
  · have small := Nat.lt_of_le_of_lt (never_more m h 0) fits
    have stays := total_iterate_eq h small
    refine ⟨?_, stays, fun other => ?_⟩
    · obtain ⟨covered, rfl⟩ := Transaction.prepare_eq_ok.1 h
      exact Transaction.total_openingAccounts covered fits
    · obtain ⟨n, hn⟩ := executed m h
      exact hn.trans (stays n fun k _ => other k)

/-- A machine with an account that can pay for a creation, and one that a creation replaces. -/
def endowed : Machine :=
  initial.mapWorld (·.mapAccounts fun accounts =>
    (accounts.insert 3 { Account.empty with balance := 10 }).insert 1
      { Account.empty with balance := 4 })

/-- A creation that replaces an account and sends value. -/
def replacement : Transaction := { Transaction.ofCreate 3 1 ⟨#[0x00]⟩ with value := 7 }

theorem replacement_loses_replaced_balance :
    endowed.accounts.total = 14 ∧ (replacement.opening 100 endowed).accounts.total = 10 ∧
      (replacement.opening 100 endowed).step.accounts.total = 10 := by
  have before : endowed.accounts.total = 14 := by decide +kernel
  have replaced : replacement.replaced endowed.accounts = 4 := by decide +kernel
  have stops : (replacement.opening 100 endowed).active.operation? = some .stop := by
    decide +kernel
  obtain ⟨_, _, stays⟩ := value_never_created 100 replacement endowed
  obtain ⟨start, stays, _⟩ := stays (by rw [before]; decide) _
    (Transaction.prepare_eq_ok.2 ⟨by decide +kernel, rfl⟩)
  rw [before, replaced] at start
  have opening : (replacement.opening 100 endowed).accounts.total = 10 :=
    Nat.add_right_cancel start
  refine ⟨before, opening, (stays 1 fun k hk => ?_).trans opening⟩
  obtain rfl : k = 0 := Nat.lt_one_iff.1 hk
  rintro ⟨_, destroys, _⟩
  exact absurd (stops.symm.trans destroys) (by decide)

end Machine

end EvmHarness
