import EvmHarness.Proofs.Conclusion
import EvmHarness.Proofs.RecordRun
import EvmHarness.Proofs.RunInvariant
set_option autoImplicit false

/-!
# Records name their code

The digest in a record is that of its code, but for an account that is being built: this carries
the digest of its initial code until the code that comes of it is deposited.  So the records that
misname their code are all at addresses for which a frame waits, and the records that a caller would
bring back misname it only where a frame below that caller waits.  Every way in which a frame ends
thereby ends the exception, too.
-/

namespace EvmHarness

/-- The digest in the record is that of its code. -/
def Account.NamesCode (r : Account) : Prop := r.codeHash = Keccak.digest r.code

theorem Account.namesCode_ofCode (code : ByteArray) : (ofCode code).NamesCode := rfl

theorem Account.namesCode_empty : empty.NamesCode := namesCode_ofCode ByteArray.empty

/-- One of the callers waits for the code of the account. -/
def Pending (callers : List Suspended) (a : Address) : Prop := ∃ s ∈ callers, s.purpose = .create a

theorem pending_cons {s : Suspended} {callers : List Suspended} {a : Address} :
    Pending (s :: callers) a ↔ s.purpose = .create a ∨ Pending callers a := by
  simp [Pending]

namespace Accounts

/-- Every record names its code. -/
def Named (xs : Accounts) : Prop := xs.Each fun _ r => r.NamesCode

/-- Every record names its code, or is that of an account for which one of the callers waits. -/
def NamedBut (callers : List Suspended) (xs : Accounts) : Prop :=
  xs.Each fun a r => r.NamesCode ∨ Pending callers a

variable {xs ys : Accounts} {callers more : List Suspended}

theorem NamedBut.mono (h : xs.NamedBut callers) (le : ∀ a, Pending callers a → Pending more a) :
    xs.NamedBut more :=
  Each.mono h fun a _ hr => hr.imp_right (le a)

theorem namedBut_nil : xs.NamedBut [] ↔ xs.Named := by
  constructor
  · intro h
    refine Each.mono h fun a r hr => hr.resolve_right ?_
    rintro ⟨s, hs, _⟩
    exact absurd hs nofun
  · exact fun h => Each.mono h fun a r hr => .inl hr

/-- Frames misname code only where they start to build an account. -/
theorem NamedBut.reaches {owns sites : Address → Prop} (h : xs.NamedBut callers)
    (reaches : ∀ b, Account.Reaches (owns b) (sites b) xs[b]? ys[b]?)
    (pending : ∀ b, sites b → Pending callers b) : ys.NamedBut callers := by
  apply Each.reaches h reaches (fun _ => .inl Account.namesCode_empty)
  intro b o r ho ha
  cases ha with
  | construct code site => exact .inr (pending b site)
  | storage s own => exact ho
  | count own countable => exact ho
  | debit value own => exact ho
  | credit value => exact ho

/-- Once its code is deposited, an account is no exception any more. -/
theorem NamedBut.deposit {s : Suspended} {a : Address} (h : xs.NamedBut (s :: callers))
    (hs : s.purpose = .create a) (code : ByteArray) :
    (xs.update a (·.withCode code)).NamedBut callers := by
  intro b r hr
  rw [getElem?_update] at hr
  split at hr
  · obtain rfl := Option.some.inj hr
    exact .inl rfl
  · rename_i hab
    apply (h b r hr).imp_right
    intro hb
    obtain hb | hb := pending_cons.1 hb
    · exact absurd (Purpose.create.inj (hs.symm.trans hb)) hab
    · exact hb

/-- What comes back, comes back with the exceptions of the frames below only. -/
theorem NamedBut.settled {s : Suspended} {w : World} (hw : w.accounts.NamedBut (s :: callers))
    (hs : s.reversion.NamedBut callers) (gasLeft : Nat) (outcome : Outcome) :
    (s.settled gasLeft outcome w).accounts.NamedBut callers := by
  obtain ⟨⟨_, _, hcall⟩, heq⟩ | ⟨address, code, hcreate, _, heq⟩ | heq :=
    s.settled_cases gasLeft outcome w
  · rw [heq]
    apply hw.mono
    intro a ha
    obtain hp | ha := pending_cons.1 ha
    · exact absurd (hcall.symm.trans hp) nofun
    · exact ha
  · rw [heq]
    exact hw.deposit hcreate code
  · rw [heq]
    exact hs

end Accounts

/-! ## The start and the end of a transaction -/

theorem Transaction.named_openingAccounts (tx : Transaction) {xs : Accounts} (h : xs.Named) :
    (tx.openingAccounts xs).Named :=
  Accounts.Each.openingAccounts h (fun _ => Account.namesCode_empty) (fun _ _ _ hr => hr)
    (fun _ _ hr => hr) (fun _ _ hr => hr) fun _ _ => rfl

/-- Other code for an account comes with its digest. -/
theorem HarnessM.Recoded.named {xs ys : Accounts} (h : Recoded xs ys) (named : xs.Named) :
    ys.Named := by
  obtain rfl | ⟨a, record, code, _, rfl⟩ := h
  · exact named
  · exact Accounts.Each.insert named rfl

namespace Machine

/-- Records misname their code only where a frame below waits for it. -/
def naming : FrameInvariant where
  running below a := a.world.accounts.NamedBut below
  ended below a := a.world.accounts.NamedBut below
  waiting below s := s.reversion.NamedBut below

theorem carries_naming (m : Machine) : m.Carries naming where
  proceed ha h := Accounts.NamedBut.reaches ha (Action.instruction_record h) nofun
  enter := by
    intro callee purpose reversion b ha h
    have enters := Action.instruction_enters h
    refine ⟨?_, ?_⟩
    · have more : m.active.world.accounts.NamedBut
          (Machine.waiting purpose reversion b :: m.suspended) :=
        Accounts.NamedBut.mono ha fun a hp => pending_cons.2 (.inr hp)
      exact more.reaches enters.sites.record fun a hp => pending_cons.2 (.inl hp)
    · show reversion.NamedBut m.suspended
      rw [enters.restores]
      exact Accounts.NamedBut.reaches ha (m.active.restored_record _) nofun
  ends ha ends := Accounts.NamedBut.reaches ha ends.record nofun
  resume hs hb _ := Accounts.NamedBut.settled hb hs _ _

variable {tx : Transaction} {gasLimit : UInt64} {before m : Machine} {n : Nat}

theorem holds_naming (named : before.accounts.Named) (h : tx.prepare gasLimit before = .ok m)
    (n : Nat) : (step^[n] m).Holds naming [] := by
  have start : m.accounts.NamedBut [] := by
    obtain ⟨_, rfl⟩ := Transaction.prepare_eq_ok.1 h
    exact Accounts.namedBut_nil.2 (tx.named_openingAccounts named)
  exact holds_run h start n fun _ _ _ => carries_naming _

theorem Holds.names (holds : m.Holds naming []) : m.accounts.NamedBut m.suspended :=
  holds.last fun _ _ => id

/-- Once there is a result, no frame waits and there are no exceptions. -/
theorem named_of_result (named : before.accounts.Named) (h : tx.prepare gasLimit before = .ok m)
    (result : (step^[n] m).result.isSome) : (step^[n] m).accounts.Named := by
  have names := (holds_naming named h n).names
  rw [((Reachable.prepared h).iterate n).alone_of_result result] at names
  exact Accounts.namedBut_nil.1 names

/-- Where every record names its code before a transaction, each does so in every state of the run,
but for those of accounts for whose code a suspended frame waits; and what a suspended frame would
bring back has no exceptions but those for which the frames below it wait.  Once there is a result,
and when the execution has returned, whatever it returns, every record names its code. -/
theorem records_name_code (gasLimit : UInt64) (tx : Transaction) {before : Machine}
    (named : before.accounts.Named) :
    (∀ m, tx.prepare gasLimit before = .ok m → ∀ n,
        (step^[n] m).accounts.NamedBut (step^[n] m).suspended ∧
          (∀ s rest, s :: rest <:+ (step^[n] m).suspended → s.reversion.NamedBut rest) ∧
          ((step^[n] m).result.isSome → (step^[n] m).accounts.Named)) ∧
      (stateAfter (HarnessM.execute gasLimit tx before)).accounts.Named := by
  constructor
  · intro m h n
    have holds := holds_naming named h n
    refine ⟨holds.names, ?_, named_of_result named h⟩
    intro s rest hs
    exact holds.waiting hs (Nat.zero_le _)
  · cases h : tx.prepare gasLimit before with
    | error fault =>
        rw [HarnessM.execute_apply, h]
        exact named
    | ok m =>
        have ended := named_of_result named h (isSome_result_run h)
        exact (HarnessM.recoded_execute h).named ended

theorem named_ofCodes (first second : ByteArray) : (ofCodes first second).accounts.Named :=
  Accounts.each_ofCodes (Account.namesCode_ofCode first) (Account.namesCode_ofCode second)

/-- A machine with an account that builds another one. -/
def builder : Machine := ofCodes ⟨#[0x60, 1, 0x5f, 0x5f, 0xf0]⟩ ByteArray.empty

theorem builder_records_name_code :
    (step^[4] (Transaction.ofFirst.opening 100000 builder)).depth = 1 ∧
      (step^[4] (Transaction.ofFirst.opening 100000 builder)).accounts.NamedBut
        (step^[4] (Transaction.ofFirst.opening 100000 builder)).suspended ∧
      (stateAfter (HarnessM.execute 100000 Transaction.ofFirst builder)).accounts.Named := by
  obtain ⟨run, ended⟩ := records_name_code 100000 Transaction.ofFirst (named_ofCodes _ _)
  obtain ⟨running, _⟩ := run _ (Transaction.prepare_ofFirst _ _) 4
  exact ⟨by decide +kernel, running, ended⟩

end Machine

end EvmHarness
