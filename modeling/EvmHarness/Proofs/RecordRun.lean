import EvmHarness.Proofs.MachineRun
set_option autoImplicit false

/-!
# What becomes of one record

The changes to the account records, seen at one address.  A frame writes to, spends from and removes
only the account that it runs for.  At the address of a creation a record is put under construction,
and everywhere else a record may gain balance and no more.
-/

namespace EvmHarness

open Relation (ReflTransGen)

namespace Account

/-- One change of what is recorded at an address.  The frame that makes it runs for the account
there (`own`), or an account is built there (`site`). -/
inductive Alters (own site : Prop) (o : Option Account) : Option Account → Prop where
  | storage (s : Storage) (h : own) : Alters own site o (some { o.getD .empty with storage := s })
  | count (h : own) (countable : (o.getD .empty).nonce ≠ Saturating.limit) :
      Alters own site o (some { o.getD .empty with nonce := (o.getD .empty).nonce + 1 })
  | debit (value : Word) (h : own) :
      Alters own site o (some { o.getD .empty with balance := (o.getD .empty).balance - value })
  | remove (h : own) : Alters own site o none
  | credit (value : Word) : Alters own site o (some ((o.getD .empty).credit value))
  | construct (code : ByteArray) (h : site) :
      Alters own site o (some ((o.getD .empty).underConstruction code))

/-- Changes of what is recorded at an address one after another. -/
abbrev Reaches (own site : Prop) : Option Account → Option Account → Prop :=
  ReflTransGen (Alters own site)

end Account

namespace Accounts

variable {own site : Prop} {xs ys : Accounts} {a b : Address}

theorem read_eq (xs : Accounts) (a : Address) : xs.read a = (xs[a]?).getD .empty :=
  Std.ExtTreeMap.getD_eq_getD_getElem?

/-- A record is changed at its address only. -/
theorem reaches_update (xs : Accounts) {f : Account → Account}
    (h : a = b → Account.Alters own site xs[b]? (some (f ((xs[b]?).getD .empty)))) :
    Account.Reaches own site xs[b]? (xs.update a f)[b]? := by
  rw [getElem?_update]
  split
  · rename_i hab
    rw [read_eq, hab]
    exact .single (h hab)
  · exact .refl

/-- A transfer takes from the sender, and adds to a receiver. -/
theorem reaches_transfer {sender receiver : Address} {value : Word}
    (h : xs.transfer? sender receiver value = some ys) (owns : b = sender → own) :
    Account.Reaches own site xs[b]? ys[b]? := by
  unfold transfer? at h
  split at h
  · exact absurd h nofun
  · split at h
    · obtain rfl := Option.some.inj h
      exact .refl
    · obtain rfl := Option.some.inj h
      have debited : Account.Reaches own site xs[b]? (xs.update sender fun a =>
          { a with balance := a.balance - value })[b]? :=
        xs.reaches_update fun hb => .debit value (owns hb.symm)
      exact debited.trans (reaches_update (f := (·.credit value)) _ fun _ => .credit value)

/-- The removal of an account takes its record, and adds to that of a beneficiary. -/
theorem reaches_destroy (xs : Accounts) {beneficiary : Address} (owns : b = a → own) :
    Account.Reaches own site xs[b]? (xs.destroy a beneficiary)[b]? := by
  have removed : Account.Reaches own site xs[b]? (xs.erase a)[b]? := by
    rw [Std.ExtTreeMap.getElem?_erase]
    split
    · rename_i hab
      exact .single (.remove (owns (Std.LawfulEqCmp.compare_eq_iff_eq.1 hab).symm))
    · exact .refl
  unfold destroy
  dsimp only
  split
  · exact removed.trans (reaches_update (f := (·.credit _)) _ fun _ => .credit _)
  · exact removed

/-! ## What holds of every record -/

/-- Every record has a property at its address. -/
def Each (P : Address → Account → Prop) (xs : Accounts) : Prop :=
  ∀ (a : Address) (r : Account), xs[a]? = some r → P a r

variable {P Q : Address → Account → Prop}

theorem Each.mono (h : xs.Each P) (le : ∀ a r, P a r → Q a r) : xs.Each Q := fun a r hr =>
  le a r (h a r hr)

theorem Each.insert (h : xs.Each P) {r : Account} (hr : P a r) : Each P (xs.insert a r) := by
  intro b r' hb
  rw [Std.ExtTreeMap.getElem?_insert] at hb
  split at hb
  · rename_i hab
    obtain rfl := Std.LawfulEqCmp.compare_eq_iff_eq.1 hab
    obtain rfl := Option.some.inj hb
    exact hr
  · exact h _ _ hb

theorem each_ofCodes {P : Address → Account → Prop} {first second : ByteArray}
    (hfirst : P 1 (.ofCode first)) (hsecond : P 2 (.ofCode second)) :
    (Machine.ofCodes first second).accounts.Each P := by
  have none : Each P ∅ := fun a r hr => absurd hr (by simp)
  exact (none.insert hfirst).insert hsecond

/-- What holds of every record and of the empty one, holds of what is read. -/
theorem Each.read (h : xs.Each P) (empty : P a .empty) : P a (xs.read a) := by
  rw [read_eq]
  cases hr : xs[a]? with
  | none => exact empty
  | some r => exact h _ _ hr

theorem Each.update (h : xs.Each P) (empty : P a .empty) {f : Account → Account}
    (keeps : ∀ r, P a r → P a (f r)) : (xs.update a f).Each P :=
  h.insert (keeps _ (h.read empty))

theorem Each.endTransaction (h : xs.Each P)
    (keeps : ∀ a r s, P a r → P a { r with storage := s }) : xs.endTransaction.Each P := by
  intro b r hb
  unfold Accounts.endTransaction at hb
  rw [Std.ExtTreeMap.getElem?_map] at hb
  obtain ⟨r, hr, rfl⟩ := Option.map_eq_some_iff.1 hb
  exact keeps _ _ _ (h _ _ hr)

/-- What the start of a transaction keeps holds of every record once a transaction is prepared. -/
theorem Each.openingAccounts {tx : Transaction} (h : xs.Each P) (empty : ∀ a, P a .empty)
    (cleared : ∀ a r s, P a r → P a { r with storage := s })
    (charged : ∀ a r, P a r →
      P a { r with balance := r.balance - tx.value, nonce := Saturating.add r.nonce 1 })
    (credited : ∀ a r, P a r → P a (r.credit tx.value))
    (created : ∀ code, tx.action = .create code →
      P tx.destination { Account.ofCode code with balance := tx.value }) :
    (tx.openingAccounts xs).Each P := by
  have paid : (tx.charge xs.endTransaction).Each P :=
    (h.endTransaction cleared).update (empty _) fun r hr => charged _ r hr
  unfold Transaction.openingAccounts Transaction.arrive
  cases haction : tx.action with
  | call data => exact paid.update (empty _) fun r hr => credited _ r hr
  | create code => exact paid.insert (created code haction)

/-- What every change of a record keeps holds of every record after a chain of changes. -/
theorem Each.reaches {owns sites : Address → Prop} (h : xs.Each P)
    (reaches : ∀ b, Account.Reaches (owns b) (sites b) xs[b]? ys[b]?) (empty : ∀ b, P b .empty)
    (keeps : ∀ {b o r}, P b (o.getD .empty) →
      Account.Alters (owns b) (sites b) o (some r) → P b r) : ys.Each P := by
  intro b r hr
  have steps := reaches b
  generalize ys[b]? = y at steps hr
  induction steps generalizing r with
  | refl => exact h _ _ hr
  | @tail o _ _ ha ih =>
      subst hr
      refine keeps ?_ ha
      cases ho : o with
      | none => exact empty b
      | some r => exact ih _ ho

end Accounts

namespace World

variable {w w' : World} {self : Address} {isStatic : Bool} {sites : Address → Prop}

/-- One change to the world, seen at an address. -/
theorem Alters.record (h : w.Alters self isStatic sites w') (b : Address) :
    Account.Reaches (b = self) (sites b) w.accounts[b]? w'.accounts[b]? := by
  cases h with
  | touch a => exact .refl
  | log topics data changeable => exact .refl
  | storage s slots => exact w.accounts.reaches_update fun hb => .storage s hb.symm
  | count changeable countable =>
      refine w.accounts.reaches_update fun hb => .count hb.symm ?_
      rwa [← hb, ← Accounts.read_eq]
  | construct address code hsite changeable free =>
      exact w.accounts.reaches_update fun hb => .construct code (hb ▸ hsite)
  | transfer receiver value moved harmless covered => exact Accounts.reaches_transfer covered id

theorem Reaches.record (h : w.Reaches self isStatic sites w') (b : Address) :
    Account.Reaches (b = self) (sites b) w.accounts[b]? w'.accounts[b]? := by
  induction h with
  | refl => exact .refl
  | tail _ ha ih => exact ih.trans (ha.record b)

end World

/-- A call or creation that fails leaves every record as it was, or its creator counted. -/
theorem Active.restored_record (a : Active) (depth : Nat) (b : Address) :
    Account.Reaches (b = a.frame.account) False a.world.accounts[b]? (a.restored depth)[b]? := by
  unfold restored
  split
  · split
    · rename_i can
      refine a.world.accounts.reaches_update fun hb => .count hb.symm ?_
      rw [← hb, ← Accounts.read_eq]
      exact can.2.2
    · exact .refl
  · exact .refl

namespace Action

variable {env : Environment} {a c : Active}

/-- An instruction that gives a value, seen at an address. -/
theorem instruction_record {next : Next} (h : instruction env a = .ok next c) (b : Address) :
    Account.Reaches (b = a.frame.account) (Active.sitesOf (.ok next c) b) a.world.accounts[b]?
      c.world.accounts[b]? := by
  obtain ⟨op, _, _, leads⟩ | ⟨_, _, beneficiary, opened, opens, rfl⟩ :=
    instruction_leads_or_destroys h
  · exact leads.world.record b
  · have haccounts : opened.world.accounts = a.world.accounts := opens.accounts
    rw [← haccounts]
    exact Accounts.reaches_destroy _ id

end Action

/-- The end of a frame, seen at an address. -/
theorem Machine.Ends.record {m : Machine} {outcome : Outcome} {c : Active} (h : m.Ends outcome c)
    (b : Address) :
    Account.Reaches (b = m.frame.account) False m.accounts[b]? c.world.accounts[b]? := by
  cases h with
  | halt h => exact Action.instruction_record h b
  | fault h => exact (Action.instruction_eq_error h).2.record b

end EvmHarness
