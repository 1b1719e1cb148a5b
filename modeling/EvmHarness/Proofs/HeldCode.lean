import EvmHarness.Proofs.CodeIdentity
set_option autoImplicit false

/-!
# What holds the code of a frame

A record that holds code is in use, so nothing is created over it, and no change that a frame makes
to it replaces its code or its digest.  Only a self-destruction ends that, and only at its own
address.
-/

namespace EvmHarness

namespace Account

variable {r r' r'' : Account} {code : ByteArray}

/-- The second record holds the code of the first one, and is in use where that is. -/
structure Inherits (r r' : Account) : Prop where
  code : r'.code = r.code
  codeHash : r'.codeHash = r.codeHash
  counted : r.nonce ≠ 0 → r'.nonce ≠ 0

theorem Inherits.refl (r : Account) : r.Inherits r := ⟨rfl, rfl, id⟩

theorem Inherits.trans (h : r.Inherits r') (h' : r'.Inherits r'') : r.Inherits r'' :=
  ⟨h'.code.trans h.code, h'.codeHash.trans h.codeHash, h'.counted ∘ h.counted⟩

theorem isTaken_iff : r.isTaken = true ↔ r.nonce ≠ 0 ∨ r.hasNoCode = false := by
  simp [isTaken]

theorem Inherits.isTaken (h : r.Inherits r') (taken : r.isTaken = true) : r'.isTaken = true := by
  rw [isTaken_iff] at taken ⊢
  apply taken.imp h.counted
  intro coded
  rw [hasNoCode, h.code]
  exact coded

/-- The record carries the digest of the code and, if there is any code, is in use. -/
structure Bears (r : Account) (code : ByteArray) : Prop where
  digest : r.codeHash = Keccak.digest code
  taken : code.isEmpty = false → r.isTaken = true

theorem Bears.inherits (h : r.Bears code) (inherits : r.Inherits r') : r'.Bears code :=
  ⟨inherits.codeHash.trans h.digest, fun coded => inherits.isTaken (h.taken coded)⟩

theorem NamesCode.bears (h : r.NamesCode) : r.Bears r.code :=
  ⟨h, fun coded => isTaken_iff.2 (.inr coded)⟩

theorem bears_underConstruction (r : Account) (code : ByteArray) :
    (r.underConstruction code).Bears code :=
  ⟨rfl, fun _ => isTaken_iff.2 (.inl Nat.one_ne_zero)⟩

end Account

namespace Accounts

variable {xs ys zs : Accounts} {a b : Address} {code : ByteArray}

/-! ## What keeps the code of a record -/

theorem read_update (xs : Accounts) (a b : Address) (f : Account → Account) :
    (xs.update a f).read b = if a = b then f (xs.read b) else xs.read b := by
  rw [read_eq, getElem?_update]
  split
  · rename_i hab
    rw [hab, Option.getD_some]
  · rw [← read_eq]

theorem mem_update (xs : Accounts) (a b : Address) (f : Account → Account) :
    b ∈ xs.update a f ↔ a = b ∨ b ∈ xs := by
  rw [update, Std.ExtTreeMap.mem_insert, Std.compare_eq_iff_eq]

/-- At the address, the second records hold the code that the first ones hold. -/
structure InheritsAt (xs ys : Accounts) (b : Address) : Prop where
  present : b ∈ xs → b ∈ ys
  record : (xs.read b).Inherits (ys.read b)

theorem InheritsAt.refl (xs : Accounts) (b : Address) : xs.InheritsAt xs b := ⟨id, .refl _⟩

theorem InheritsAt.trans (h : xs.InheritsAt ys b) (h' : ys.InheritsAt zs b) :
    xs.InheritsAt zs b := ⟨h'.present ∘ h.present, h.record.trans h'.record⟩

theorem inheritsAt_update (xs : Accounts) {f : Account → Account}
    (h : a = b → (xs.read b).Inherits (f (xs.read b))) : xs.InheritsAt (xs.update a f) b := by
  refine ⟨fun hb => (mem_update xs a b f).2 (.inr hb), ?_⟩
  rw [read_update]
  split
  · rename_i hab
    exact h hab
  · exact .refl _

theorem inheritsAt_transfer {sender receiver : Address} {value : Word}
    (h : xs.transfer? sender receiver value = some ys) (b : Address) : xs.InheritsAt ys b := by
  unfold transfer? at h
  split at h
  · exact absurd h nofun
  · split at h
    · obtain rfl := Option.some.inj h
      exact .refl _ _
    · obtain rfl := Option.some.inj h
      have debited := xs.inheritsAt_update (a := sender) (b := b)
        (f := fun r => { r with balance := r.balance - value }) fun _ => ⟨rfl, rfl, id⟩
      exact debited.trans (inheritsAt_update _ fun _ => ⟨rfl, rfl, id⟩)

/-- A creation that is counted changes the nonce only. -/
theorem inheritsAt_countCreation (xs : Accounts) (creator b : Address) :
    xs.InheritsAt (xs.countCreation creator) b :=
  xs.inheritsAt_update fun _ => ⟨rfl, rfl, fun _ => Nat.succ_ne_zero _⟩

theorem inheritsAt_destroy (xs : Accounts) (beneficiary : Address) (other : a ≠ b) :
    xs.InheritsAt (xs.destroy a beneficiary) b := by
  have erased : xs.InheritsAt (xs.erase a) b := by
    refine ⟨fun hb => ?_, ?_⟩
    · rw [Std.ExtTreeMap.mem_erase]
      exact ⟨fun heq => other (Std.compare_eq_iff_eq.1 heq), hb⟩
    · rw [read_eq, read_eq, Std.ExtTreeMap.getElem?_erase, if_neg fun heq =>
        other (Std.compare_eq_iff_eq.1 heq)]
      exact .refl _
  unfold destroy
  dsimp only
  split
  · exact erased.trans (inheritsAt_update _ fun _ => ⟨rfl, rfl, id⟩)
  · exact erased

theorem read_destroy_self (xs : Accounts) (a beneficiary : Address) :
    (xs.destroy a beneficiary).read a = .empty := by
  have gone : Accounts.read (xs.erase a) a = .empty := by
    rw [read_eq, Std.ExtTreeMap.getElem?_erase_self, Option.getD_none]
  unfold destroy
  dsimp only
  split
  · rename_i sent
    rw [read_update, if_neg sent.1, gone]
  · exact gone

/-- What the changes of a frame do to the code of records: they replace none, and a record under
construction is only put where none is in use. -/
structure Evolves (sites : Address → Prop) (xs ys : Accounts) : Prop where
  code : ∀ b, (ys.read b).code = (xs.read b).code
  inherits : ∀ b, (xs.read b).isTaken = true ∨ ¬ sites b → xs.InheritsAt ys b

variable {sites : Address → Prop}

theorem Evolves.of_inheritsAt (h : ∀ b, xs.InheritsAt ys b) : xs.Evolves sites ys :=
  ⟨fun b => (h b).record.code, fun b _ => h b⟩

theorem Evolves.trans (h : xs.Evolves sites ys) (h' : ys.Evolves sites zs) :
    xs.Evolves sites zs := by
  refine ⟨fun b => (h'.code b).trans (h.code b), fun b safe => ?_⟩
  have first := h.inherits b safe
  exact first.trans (h'.inherits b (safe.imp_left first.record.isTaken))

/-- An address that is free for a creation is not in use. -/
theorem isTaken_eq_false (free : ¬ xs[a]?.any Account.isTaken = true) :
    (xs.read a).isTaken = false := by
  rw [read_eq]
  cases hr : xs[a]? with
  | none => decide
  | some r =>
      rw [hr] at free
      exact Bool.eq_false_iff.2 free

theorem evolves_construct (site : sites a) (code : ByteArray)
    (free : ¬ xs[a]?.any Account.isTaken = true) :
    xs.Evolves sites (xs.update a (·.underConstruction code)) := by
  refine ⟨fun b => ?_, fun b safe => inheritsAt_update _ ?_⟩
  · rw [read_update]
    split <;> rfl
  · rintro rfl
    rcases safe with taken | away
    · rw [isTaken_eq_false free] at taken
      exact absurd taken Bool.false_ne_true
    · exact absurd site away

/-! ## Records that hold code -/

/-- Every record that holds code names it. -/
def NamesHeld (xs : Accounts) : Prop :=
  ∀ a, (xs.read a).hasNoCode = false → (xs.read a).NamesCode

theorem Named.namesHeld (h : xs.Named) : xs.NamesHeld :=
  fun _ _ => Each.read h Account.namesCode_empty

theorem NamesHeld.evolves (h : xs.NamesHeld) (evolves : xs.Evolves sites ys) : ys.NamesHeld := by
  intro b coded
  have held : (xs.read b).hasNoCode = false := by
    rw [Account.hasNoCode, ← evolves.code b]
    exact coded
  have kept := evolves.inherits b (.inl (Account.isTaken_iff.2 (.inr held)))
  rw [Account.NamesCode, kept.record.codeHash, kept.record.code]
  exact h b held

theorem NamesHeld.destroy (h : xs.NamesHeld) (a beneficiary : Address) :
    (xs.destroy a beneficiary).NamesHeld := by
  intro b coded
  by_cases hab : a = b
  · subst hab
    rw [read_destroy_self]
    exact Account.namesCode_empty
  · have kept := (xs.inheritsAt_destroy beneficiary hab).record
    rw [Account.hasNoCode, kept.code] at coded
    rw [Account.NamesCode, kept.codeHash, kept.code]
    exact h b coded

theorem NamesHeld.deposit (h : xs.NamesHeld) (a : Address) (code : ByteArray) :
    (xs.update a (·.withCode code)).NamesHeld := by
  intro b coded
  rw [read_update] at coded ⊢
  split at coded
  · rename_i hab
    rw [if_pos hab]
    rfl
  · rename_i hab
    rw [if_neg hab]
    exact h b coded

/-- There is a record at the address, and it carries the digest of the code. -/
structure Identifies (xs : Accounts) (a : Address) (code : ByteArray) : Prop where
  present : a ∈ xs
  bears : (xs.read a).Bears code

theorem Identifies.inheritsAt (h : xs.Identifies a code) (inherits : xs.InheritsAt ys a) :
    ys.Identifies a code :=
  ⟨inherits.present h.present, h.bears.inherits inherits.record⟩

/-- Code that a record holds is known by its digest. -/
theorem NamesHeld.identifies (h : xs.NamesHeld) {record : Account} (found : xs[a]? = some record)
    (coded : record.code.isEmpty = false) : xs.Identifies a record.code := by
  have held := read_eq_of_getElem? found
  have names := h a (by rw [held]; exact coded)
  refine ⟨Std.ExtTreeMap.isSome_getElem?_iff_mem.1 (by rw [found]; rfl), ?_⟩
  rw [held] at names ⊢
  exact names.bears

/-- Initial code is known by its digest from when its creation begins. -/
theorem identifies_of_begins {creator : Address} {value : Word}
    (h : Action.Begins creator a value code xs ys) : ys.Identifies a code := by
  have begun : Accounts.Identifies (xs.update a (·.underConstruction code)) a code := by
    refine ⟨(mem_update _ _ _ _).2 (.inl rfl), ?_⟩
    rw [read_update, if_pos rfl]
    exact Account.bears_underConstruction _ _
  exact begun.inheritsAt (inheritsAt_transfer h.covered a)

end Accounts

namespace World

variable {w w' : World} {self : Address} {isStatic : Bool} {sites : Address → Prop}

theorem Alters.evolves (h : w.Alters self isStatic sites w') :
    w.accounts.Evolves sites w'.accounts := by
  cases h with
  | touch a => exact .of_inheritsAt fun b => .refl _ b
  | log topics data changeable => exact .of_inheritsAt fun b => .refl _ b
  | storage s slots =>
      refine .of_inheritsAt fun b => ?_
      exact w.accounts.inheritsAt_update (f := fun r => { r with storage := s })
        fun _ => ⟨rfl, rfl, id⟩
  | count changeable countable => exact .of_inheritsAt (Accounts.inheritsAt_countCreation _ _)
  | construct address code site changeable free => exact Accounts.evolves_construct site code free
  | transfer receiver value moved harmless covered =>
      exact .of_inheritsAt (Accounts.inheritsAt_transfer covered)

theorem Reaches.evolves (h : w.Reaches self isStatic sites w') :
    w.accounts.Evolves sites w'.accounts := by
  induction h with
  | refl => exact .of_inheritsAt fun b => .refl _ b
  | tail _ ha ih => exact ih.trans ha.evolves

end World

end EvmHarness
