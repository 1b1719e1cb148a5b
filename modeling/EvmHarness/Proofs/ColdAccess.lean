import EvmHarness.Proofs.CodeAttribution
import EvmHarness.Proofs.FirstTouch
set_option autoImplicit false

/-!
# Cold access is paid once

An operation pays more for the first touch of an address or a slot than for any later one.  It
touches before it pays, so even where the price of a first touch cannot be paid it is not asked for
again.  That lasts as long as the touch is remembered: that of an address until the
end of the run, whatever fails, and that of a slot as long as the record of the account is neither
removed nor replaced by the one from before a failed call.
-/

namespace EvmHarness

namespace Suspended

variable {s : Suspended} {gasLeft : Nat} {outcome : Outcome} {w : World} {account : Address}
  {key : Word}

/-- An outcome that is not taken for a failure leaves the slots that have been touched. -/
theorem isWarm_settled (taken : ¬ s.Refuses gasLeft outcome w)
    (warm : w.accounts.IsWarm account key) :
    (s.settled gasLeft outcome w).accounts.IsWarm account key := by
  unfold Refuses at taken
  unfold settled
  cases outcome with
  | failure fault => exact absurd trivial taken
  | success output =>
      cases hp : s.purpose with
      | call offset size => exact warm
      | create address =>
          rw [hp] at taken
          dsimp only at taken ⊢
          cases hd : w.deposit address output gasLeft with
          | error fault => exact absurd ⟨fault, hd⟩ taken
          | ok left =>
              obtain ⟨_, _, deposited⟩ := deposit_eq_ok hd
              dsimp only
              rw [deposited]
              exact warm.update id

end Suspended

namespace Machine

variable {m : Machine} {op : Operation} {address account : Address} {key : Word} {price : Nat}
  {slot : SlotAccess}

/-! ## Asking for the price of a touch -/

/-- The next instruction is about to touch an address in the state `b`. -/
def AccessesAccount (m : Machine) (op : Operation) (access : AccountAccess) (b : Active) : Prop :=
  m.result = none ∧ m.active.Starts op ∧ ∃ opening, op.accountAccess? = some opening ∧
    opening m.environment (m.active.started op) = .ok access b

/-- The next instruction is about to touch a slot in the state `b`. -/
def AccessesSlot (m : Machine) (slot : SlotAccess) (b : Active) : Prop :=
  m.result = none ∧ ∃ op opening, m.active.Starts op ∧ op.slotAccess? = some opening ∧
    opening m.environment (m.active.started op) = .ok slot b

/-- The next instruction touches the address, for which its operation pays. -/
def TouchesAccount (m : Machine) (op : Operation) (address : Address) : Prop :=
  ∃ access b, m.AccessesAccount op access b ∧ access.address = address

/-- The next instruction accesses a slot of the account. -/
def TouchesSlot (m : Machine) (slot : SlotAccess) (account : Address) : Prop :=
  ∃ b, m.AccessesSlot slot b ∧ b.frame.account = account

/-- The next instruction is charged this price for the address that it touches: it asks for the
price, and what comes of it is what comes of paying that, with what else is paid at once, and going
on. -/
def PaysForAccount (m : Machine) (op : Operation) (address : Address) (price : Nat) : Prop :=
  ∃ access b, m.AccessesAccount op access b ∧ access.address = address ∧
    access.price m.environment b = .ok price { b with world := b.world.touch address } ∧
    Action.instruction m.environment m.active =
      Active.paying { b with world := b.world.touch address } m.environment (price + access.extra)
        access.rest

/-- The next instruction is charged this price for the slot of the account that it accesses. -/
def PaysForSlot (m : Machine) (slot : SlotAccess) (account : Address) (price : Nat) : Prop :=
  ∃ b, m.AccessesSlot slot b ∧ b.frame.account = account ∧ (slot.price b.storage).1 = price ∧
    Action.instruction m.environment m.active =
      (b.withStorage (b.storage.touch slot.key)).paying m.environment price
        (slot.rest (b.storage.value slot.key))

/-- The next instruction is charged the surcharge for an address. -/
def ChargesColdAccount (m : Machine) (op : Operation) (address : Address) : Prop :=
  m.PaysForAccount op address (if op = .selfDestruct then 2600 else 2500)

/-- The next instruction is charged the price of a cold slot, or that on top of what a write
costs. -/
def ChargesColdSlot (m : Machine) (account : Address) (key : Word) : Prop :=
  ∃ slot : SlotAccess, slot.key = key ∧
    m.PaysForSlot slot account (slot.coldPrice ((m.accounts.read account).storage.value key))

/-! ## What is asked for is paid -/

theorem AccessesAccount.sound {access : AccountAccess} {b : Active}
    (h : m.AccessesAccount op access b) : access.Sound op.surcharge := by
  obtain ⟨_, _, opening, hop, opens⟩ := h
  exact Action.gives_accountAccess hop opens

/-- Nothing in the world has changed when an address is touched. -/
theorem AccessesAccount.world {access : AccountAccess} {b : Active}
    (h : m.AccessesAccount op access b) : b.world = m.world := by
  obtain ⟨_, _, opening, hop, opens⟩ := h
  have same : (m.active.started op).SameWorld b :=
    (Action.sameWorld_accountAccess hop).of_eq_ok opens
  exact same

/-- Nor when a slot is touched. -/
theorem AccessesSlot.world {b : Active} (h : m.AccessesSlot slot b) : b.world = m.world := by
  obtain ⟨_, op, opening, _, hop, opens⟩ := h
  have same : (m.active.started op).SameWorld b := (Action.sameWorld_slotAccess hop).of_eq_ok opens
  exact same

/-- The instruction is what is left to do once the address is touched: it pays the surcharge, unless
the address had been touched before, and goes on. -/
theorem AccessesAccount.instruction {access : AccountAccess} {b : Active}
    (h : m.AccessesAccount op access b) :
    Action.instruction m.environment m.active =
      Active.paying { b with world := b.world.touch access.address } m.environment
        ((if access.address ∈ b.world.accessed then 0 else op.surcharge) + access.extra)
        access.rest := by
  have priced := h.sound.price m.environment b
  obtain ⟨_, starts, opening, hop, opens⟩ := h
  rw [Action.instruction_of_starts _ starts, Action.perform_of_accountAccess hop,
    Action.bind_of_eq_ok opens]
  exact (Action.bind_of_eq_ok priced _).trans (Action.charge_bind _ _)

/-- The instruction is what is left to do once the slot is touched: it pays the price that this has
found and goes on. -/
theorem AccessesSlot.instruction {b : Active} (h : m.AccessesSlot slot b) :
    Action.instruction m.environment m.active =
      (b.withStorage (b.storage.touch slot.key)).paying m.environment (slot.price b.storage).1
        (slot.rest (b.storage.value slot.key)) := by
  obtain ⟨_, op, opening, starts, hop, opens⟩ := h
  rw [Action.instruction_of_starts _ starts, Action.perform_of_slotAccess hop,
    Action.bind_of_eq_ok opens]
  exact Action.slotAccess_apply slot m.environment b

/-- An instruction that touches an address pays the surcharge where the address has not been
touched, and nothing where it has. -/
theorem paysForAccount_iff : m.PaysForAccount op address price ↔
    m.TouchesAccount op address ∧
      price = if address ∈ m.world.accessed then 0 else op.surcharge := by
  constructor
  · rintro ⟨access, b, accesses, rfl, asks, -⟩
    refine ⟨⟨access, b, accesses, rfl⟩, ?_⟩
    have found := asks.symm.trans (accesses.sound.price m.environment b)
    rw [accesses.world] at found
    exact (EStateM.Result.ok.inj found).1
  · rintro ⟨⟨access, b, accesses, rfl⟩, rfl⟩
    rw [← accesses.world]
    exact ⟨access, b, accesses, rfl, accesses.sound.price m.environment b, accesses.instruction⟩

/-- An instruction that accesses a slot pays what that costs, which hangs on whether the slot has
been touched. -/
theorem paysForSlot_iff : m.PaysForSlot slot account price ↔
    m.TouchesSlot slot account ∧
      price = if m.accounts.IsWarm account slot.key
        then slot.warmPrice ((m.accounts.read account).storage.value slot.key)
        else slot.coldPrice ((m.accounts.read account).storage.value slot.key) := by
  have same {b : Active} (accesses : m.AccessesSlot slot b) : (slot.price b.storage).1 =
      if m.accounts.IsWarm b.frame.account slot.key
        then slot.warmPrice ((m.accounts.read b.frame.account).storage.value slot.key)
        else slot.coldPrice ((m.accounts.read b.frame.account).storage.value slot.key) := by
    have storage : b.storage = (m.accounts.read b.frame.account).storage := by
      rw [Active.storage, accesses.world]
      rfl
    rw [slot.price_eq, storage]
    rfl
  constructor
  · rintro ⟨b, accesses, rfl, rfl, -⟩
    exact ⟨⟨b, accesses, rfl⟩, same accesses⟩
  · rintro ⟨⟨b, accesses, rfl⟩, rfl⟩
    rw [← same accesses]
    exact ⟨b, accesses, rfl, rfl, accesses.instruction⟩

theorem chargesColdAccount_iff : m.ChargesColdAccount op address ↔
    m.TouchesAccount op address ∧ address ∉ m.world.accessed := by
  have some : op.surcharge ≠ 0 := by cases op <;> exact Nat.succ_ne_zero _
  rw [ChargesColdAccount, ← op.surcharge_eq, paysForAccount_iff]
  refine and_congr_right fun _ => ?_
  by_cases touched : address ∈ m.world.accessed
  · simp [touched, some]
  · simp [touched]

theorem chargesColdSlot_iff : m.ChargesColdSlot account key ↔
    (∃ slot, m.TouchesSlot slot account ∧ slot.key = key) ∧ ¬ m.accounts.IsWarm account key := by
  constructor
  · rintro ⟨slot, rfl, pays⟩
    obtain ⟨touches, priced⟩ := paysForSlot_iff.1 pays
    refine ⟨⟨slot, touches, rfl⟩, fun warm => ?_⟩
    rw [if_pos warm] at priced
    exact slot.coldPrice_ne_warmPrice _ priced
  · rintro ⟨⟨slot, touches, rfl⟩, cold⟩
    exact ⟨slot, rfl, paysForSlot_iff.2 ⟨touches, (if_neg cold).symm⟩⟩

/-! ## What an instruction has touched -/

/-- An address that is touched is so after the instruction, be the price paid or not. -/
theorem AccessesAccount.touches {access : AccountAccess} {b : Active}
    (h : m.AccessesAccount op access b) :
    access.address ∈ (stateAfter (Action.instruction m.environment m.active)).world.accessed := by
  have touched : access.address ∈ (b.world.touch access.address).accessed :=
    Std.ExtTreeSet.mem_insert_self
  rw [h.instruction]
  exact Active.stateAfter_paying (P := fun c => access.address ∈ c.world.accessed) touched
    fun gas => h.sound.remembers _ _ _ touched

/-- So is a slot. -/
theorem AccessesSlot.touches {b : Active} (h : m.AccessesSlot slot b) :
    (stateAfter (Action.instruction m.environment m.active)).world.accounts.IsWarm b.frame.account
      slot.key := by
  have touched : (b.withStorage (b.storage.touch slot.key)).world.accounts.IsWarm b.frame.account
      slot.key := Accounts.IsWarm.update_self_iff.2 Std.ExtTreeSet.mem_insert_self
  rw [h.instruction]
  exact Active.stateAfter_paying (P := fun c => c.world.accounts.IsWarm b.frame.account slot.key)
    touched fun gas => (Action.remembers_slotAccess slot _ _ _).slots touched

/-! ## One step -/

theorem Ends.stateAfter {outcome : Outcome} {b : Active} (h : m.Ends outcome b) :
    stateAfter (Action.instruction m.environment m.active) = b := by
  cases h with
  | halt h =>
      rw [h]
      rfl
  | fault h =>
      rw [h]
      rfl

/-- The world after a step is the one that the instruction leaves, or what a caller makes of it. -/
theorem world_step (running : m.result = none) (room : m.Room) :
    m.step.world = (stateAfter (Action.instruction m.environment m.active)).world ∨
      ∃ outcome b s rest, m.Ends outcome b ∧ m.suspended = s :: rest ∧
        m.step.world = s.settled b.frame.gas outcome b.world := by
  have moves := moves_step running room
  generalize m.step = n at moves ⊢
  cases moves with
  | proceed h =>
      left
      rw [h]
      rfl
  | enter h =>
      left
      rw [h]
      rfl
  | finish ends alone =>
      left
      rw [ends.stateAfter]
      rfl
  | resume ends callers runs => exact .inr ⟨_, _, _, _, ends, callers, rfl⟩

/-- An address that a step touches is touched after it. -/
theorem TouchesAccount.accessed_step (h : m.TouchesAccount op address) (room : m.Room) :
    address ∈ m.step.world.accessed := by
  obtain ⟨access, b, accesses, rfl⟩ := h
  have touched := accesses.touches
  obtain same | ⟨outcome, c, s, rest, ends, _, settled⟩ := world_step accesses.1 room
  · rwa [same]
  · rw [ends.stateAfter] at touched
    rwa [settled, s.settled_accessed]

/-- A slot that an instruction leaves touched is touched after the step, unless a nested frame
fails. -/
theorem isWarm_step (running : m.result = none) (room : m.Room) (fine : ¬ m.FailsNested)
    (warm : (stateAfter (Action.instruction m.environment m.active)).world.accounts.IsWarm account
      key) : m.step.accounts.IsWarm account key := by
  show m.step.world.accounts.IsWarm account key
  obtain same | ⟨outcome, b, s, rest, ends, callers, settled⟩ := world_step running room
  · rwa [same]
  · rw [ends.stateAfter] at warm
    rw [settled]
    exact s.isWarm_settled (fun refuses => fine ⟨running, _, _, _, _, ends, callers, refuses⟩) warm

/-- A slot that has been touched stays so, unless a nested frame fails or an account is
destroyed. -/
theorem Reachable.isWarm_iterate (h : m.Reachable) {n : Nat}
    (fine : ∀ k < n, ¬ (step^[k] m).FailsNested ∧ ∀ a, ¬ (step^[k] m).Destroys a)
    (warm : m.accounts.IsWarm account key) : (step^[n] m).accounts.IsWarm account key := by
  induction n with
  | zero => exact warm
  | succ n ih =>
      have warm := ih fun k hk => fine k (Nat.lt_succ_of_lt hk)
      obtain ⟨taken, spared⟩ := fine n (Nat.lt_succ_self n)
      rw [Function.iterate_succ_apply']
      generalize hs : step^[n] m = s at warm taken spared ⊢
      have room : s.Room := hs ▸ (h.iterate n).room
      cases running : s.result with
      | some outcome => rwa [step_eq_self running]
      | none =>
          refine isWarm_step running room taken ?_
          have remembers :
              s.active.Remembers (stateAfter (Action.instruction s.environment s.active)) :=
            Action.remembers_instruction fun hop next b performed =>
              spared _ ⟨running, hop, rfl, next, b, performed⟩
          exact remembers.slots warm

/-! ## The whole run -/

/-- An address that is charged for is not charged for again. -/
theorem TouchesAccount.once (h : m.TouchesAccount op address) (reachable : m.Reachable)
    {n : Nat} {op' : Operation} : ¬ (step^[n] m.step).ChargesColdAccount op' address := by
  have touched := h.accessed_step reachable.room
  intro charges
  exact (chargesColdAccount_iff.1 charges).2 (reachable.stepped.accessed_iterate touched n)

/-- A slot that is charged for is not charged for again, unless a nested frame fails or an account
is destroyed in between. -/
theorem TouchesSlot.once (h : m.TouchesSlot slot account) (reachable : m.Reachable) {n : Nat}
    (fine : ∀ k ≤ n, ¬ (step^[k] m).FailsNested ∧ ∀ a, ¬ (step^[k] m).Destroys a) :
    ¬ (step^[n] m.step).ChargesColdSlot account slot.key := by
  obtain ⟨b, accesses, rfl⟩ := h
  have warm : m.step.accounts.IsWarm b.frame.account slot.key :=
    isWarm_step accesses.1 reachable.room (fine 0 (Nat.zero_le n)).1 accesses.touches
  intro charges
  refine (chargesColdSlot_iff.1 charges).2 ?_
  exact reachable.stepped.isWarm_iterate (n := n) (fun k hk => fine (k + 1) hk) warm

variable {tx : Transaction} {gasLimit : UInt64} {before : Machine}

/-- Along a run, addresses that have been touched stay touched.  An operation that pays for an
address pays its surcharge where the address has not been touched, and nothing where it has.  So at
most one step is charged the surcharge for an address, and for the sender and the destination none.
An access to a slot costs what it costs for a cold one where the slot has not been touched, and else
what it costs for a warm one.  So at most one step is charged for a cold slot, as long as no nested
frame fails and no account is destroyed in between. -/
theorem cold_access_paid_once (h : tx.prepare gasLimit before = .ok m) :
    (∀ i j : Nat, i ≤ j → ∀ address ∈ (step^[i] m).world.accessed,
        address ∈ (step^[j] m).world.accessed) ∧
      (∀ (i : Nat) (op : Operation) (address : Address) (price : Nat),
        (step^[i] m).PaysForAccount op address price ↔
          (step^[i] m).TouchesAccount op address ∧
            price = if address ∈ (step^[i] m).world.accessed then 0
              else if op = .selfDestruct then 2600 else 2500) ∧
      (∀ (i j : Nat) (op op' : Operation) (address : Address), i < j →
        (step^[i] m).ChargesColdAccount op address →
          ¬ (step^[j] m).ChargesColdAccount op' address) ∧
      (∀ (i : Nat) (op : Operation), ¬ (step^[i] m).ChargesColdAccount op tx.sender ∧
        ¬ (step^[i] m).ChargesColdAccount op tx.destination) ∧
      (∀ (i : Nat) (slot : SlotAccess) (account : Address) (price : Nat),
        (step^[i] m).PaysForSlot slot account price ↔
          (step^[i] m).TouchesSlot slot account ∧
            price = if (step^[i] m).accounts.IsWarm account slot.key
              then slot.warmPrice (((step^[i] m).accounts.read account).storage.value slot.key)
              else slot.coldPrice (((step^[i] m).accounts.read account).storage.value slot.key)) ∧
      ∀ (i j : Nat) (account : Address) (key : Word), i < j →
        (∀ k, i ≤ k → k < j → ¬ (step^[k] m).FailsNested ∧ ∀ a, ¬ (step^[k] m).Destroys a) →
          (step^[i] m).ChargesColdSlot account key →
            ¬ (step^[j] m).ChargesColdSlot account key := by
  have reachable : m.Reachable := .prepared h
  have later (i n : Nat) : step^[n + i] m = step^[n] (step^[i] m) :=
    Function.iterate_add_apply step n i m
  have next (i n : Nat) : step^[i + n + 1] m = step^[n] (step^[i] m).step := by
    rw [Nat.add_assoc, Nat.add_comm, later, Function.iterate_succ_apply]
  refine ⟨?_, ?_, ?_, ?_, fun i slot account price => paysForSlot_iff, ?_⟩
  · intro i j hij address touched
    obtain ⟨n, rfl⟩ := Nat.exists_eq_add_of_le' hij
    rw [later]
    exact (reachable.iterate i).accessed_iterate touched n
  · intro i op address price
    rw [← op.surcharge_eq]
    exact paysForAccount_iff
  · intro i j op op' address hij charges
    obtain ⟨n, rfl⟩ := Nat.exists_eq_add_of_lt hij
    rw [next]
    exact (chargesColdAccount_iff.1 charges).1.once (reachable.iterate i)
  · intro i op
    have sender : tx.sender ∈ m.world.accessed := by
      obtain ⟨_, rfl⟩ := Transaction.prepare_eq_ok.1 h
      exact Std.ExtTreeSet.mem_insert.2 (.inr Std.ExtTreeSet.mem_insert_self)
    constructor
    · intro charges
      exact (chargesColdAccount_iff.1 charges).2 (reachable.accessed_iterate sender i)
    · intro charges
      exact (chargesColdAccount_iff.1 charges).2 (destination_accessed h i)
  · intro i j account key hij fine charges
    obtain ⟨n, rfl⟩ := Nat.exists_eq_add_of_lt hij
    rw [next]
    obtain ⟨⟨slot, touches, rfl⟩, -⟩ := chargesColdSlot_iff.1 charges
    refine touches.once (reachable.iterate i) fun k hk => ?_
    rw [← later]
    exact fine (k + i) (Nat.le_add_left i k) (by omega)

/-! ## A slot read through two frames -/

/-- The address that an operation is about to touch, if it comes to that. -/
def touchedAccount? (m : Machine) (op : Operation) : Option Address := do
  match (← op.accountAccess?) m.environment (m.active.started op) with
  | .ok access _ => some access.address
  | .error _ _ => none

/-- The slot that an operation is about to access, if it comes to that, with its account. -/
def touchedSlot? (m : Machine) (op : Operation) : Option (SlotAccess × Address) := do
  match (← op.slotAccess?) m.environment (m.active.started op) with
  | .ok slot b => some (slot, b.frame.account)
  | .error _ _ => none

theorem touchesAccount_of_eq_some (running : m.result = none) (starts : m.active.Starts op)
    (h : m.touchedAccount? op = some address) : m.TouchesAccount op address := by
  obtain ⟨opening, hop, h⟩ := Option.bind_eq_some_iff.1 h
  cases opens : opening m.environment (m.active.started op) with
  | ok access b =>
      rw [opens] at h
      exact ⟨access, b, ⟨running, starts, opening, hop, opens⟩, Option.some.inj h⟩
  | error fault b =>
      rw [opens] at h
      exact absurd h.symm (Option.some_ne_none _)

theorem touchesSlot_of_eq_some (op : Operation) (running : m.result = none)
    (starts : m.active.Starts op) (h : m.touchedSlot? op = some (slot, account)) :
    m.TouchesSlot slot account := by
  obtain ⟨opening, hop, h⟩ := Option.bind_eq_some_iff.1 h
  cases opens : opening m.environment (m.active.started op) with
  | ok access b =>
      rw [opens] at h
      obtain ⟨rfl, rfl⟩ := Prod.mk.inj (Option.some.inj h)
      exact ⟨b, ⟨running, op, opening, starts, hop, opens⟩, rfl⟩
  | error fault b =>
      rw [opens] at h
      exact absurd h.symm (Option.some_ne_none _)

/-- An account that looks another one up, loads a slot, and lets the code of the other account load
the same slot and fill it. -/
def delegator : Machine :=
  Transaction.ofFirst.opening 100000 (ofCodes
    ⟨#[0x60, 2, 0x31, 0x5f, 0x54, 0x5f, 0x5f, 0x5f, 0x5f, 0x60, 2, 0x5a, 0xf4]⟩
    ⟨#[0x5f, 0x54, 0x60, 1, 0x5f, 0x55]⟩)

/-- The other account is paid for by the look-up and not by the call, and the slot by the outer load
and not by the inner load and store, which pay for a warm one. -/
theorem delegator_pays_once :
    ((step^[1] delegator).PaysForAccount (.account .balance) 2 2500 ∧
      (step^[10] delegator).PaysForAccount (.call .delegate) 2 0 ∧
      ∀ op, ¬ (step^[10] delegator).ChargesColdAccount op 2) ∧
      (step^[12] delegator).depth = 1 ∧ (step^[3] delegator).PaysForSlot (.load 0) 1 2100 ∧
      (step^[12] delegator).PaysForSlot (.load 0) 1 100 ∧
      (step^[15] delegator).PaysForSlot (.store 0 1) 1 20000 ∧
      ¬ (step^[15] delegator).ChargesColdSlot 1 0 := by
  have looksUp : (step^[1] delegator).TouchesAccount (.account .balance) 2 :=
    touchesAccount_of_eq_some (by decide +kernel) (by decide +kernel) (by decide +kernel)
  have calls : (step^[10] delegator).TouchesAccount (.call .delegate) 2 :=
    touchesAccount_of_eq_some (by decide +kernel) (by decide +kernel) (by decide +kernel)
  have loads : (step^[3] delegator).TouchesSlot (.load 0) 1 :=
    touchesSlot_of_eq_some .loadSlot (by decide +kernel) (by decide +kernel) (by decide +kernel)
  have loadsAgain : (step^[12] delegator).TouchesSlot (.load 0) 1 :=
    touchesSlot_of_eq_some .loadSlot (by decide +kernel) (by decide +kernel) (by decide +kernel)
  have stores : (step^[15] delegator).TouchesSlot (.store 0 1) 1 :=
    touchesSlot_of_eq_some .storeSlot (by decide +kernel) (by decide +kernel) (by decide +kernel)
  have quiet : ∀ k < 15, (step^[k] delegator).ending? = none ∧
      (step^[k] delegator).active.operation? ≠ some .selfDestruct := by decide +kernel
  have prepared : Transaction.ofFirst.prepare 100000 _ = .ok delegator :=
    Transaction.prepare_ofFirst _ _
  obtain ⟨_, accountPrice, accounts, _, slotPrice, slots⟩ := cold_access_paid_once prepared
  have first : (step^[1] delegator).PaysForAccount (.account .balance) 2 2500 :=
    (accountPrice 1 _ 2 2500).2 ⟨looksUp, by decide +kernel⟩
  have firstLoad : (step^[3] delegator).PaysForSlot (.load 0) 1 2100 :=
    (slotPrice 3 _ 1 2100).2 ⟨loads, by decide +kernel⟩
  refine ⟨⟨first, (accountPrice 10 _ 2 0).2 ⟨calls, by decide +kernel⟩, fun op => ?_⟩,
    by decide +kernel, firstLoad, (slotPrice 12 _ 1 100).2 ⟨loadsAgain, by decide +kernel⟩,
    (slotPrice 15 _ 1 20000).2 ⟨stores, by decide +kernel⟩, ?_⟩
  · exact accounts 1 10 _ op 2 (by decide) first
  · refine slots 3 15 1 0 (by decide) (fun k _ hk => ⟨?_, fun a destroys => ?_⟩)
      ⟨.load 0, rfl, firstLoad⟩
    · rintro ⟨_, outcome, b, s, rest, ends, -⟩
      have ending := ending?_eq_some.2 ends
      rw [(quiet k hk).1] at ending
      exact Option.some_ne_none _ ending.symm
    · exact (quiet k hk).2 destroys.2.1

end Machine

end EvmHarness
