import EvmHarness.Proofs.RunInvariant
set_option autoImplicit false

/-!
# A static call changes nothing

A static frame may still touch addresses and slots, and reading a slot writes the record of its
account.  That this leaves the world as it was, touches aside, needs the record to be there: it is,
since a static callee runs code, code belongs to a record, and no record goes away meanwhile.
-/

namespace EvmHarness

/-- The record with no slot touched. -/
def Account.cooled (a : Account) : Account := { a with storage := { a.storage with warm := ∅ } }

namespace Accounts

/-- The same addresses have records, and these differ in touched slots only. -/
def Agree (xs ys : Accounts) : Prop :=
  ∀ a : Address, xs[a]?.map Account.cooled = ys[a]?.map Account.cooled

variable {xs ys zs : Accounts} {a : Address}

theorem Agree.refl (xs : Accounts) : xs.Agree xs := fun _ => rfl

theorem Agree.mem (h : xs.Agree ys) (ha : a ∈ ys) : a ∈ xs := by
  have hsome := congrArg Option.isSome (h a)
  rw [Option.isSome_map, Option.isSome_map, Std.ExtTreeMap.isSome_getElem?_iff_mem.2 ha] at hsome
  exact Std.ExtTreeMap.isSome_getElem?_iff_mem.1 hsome

theorem Agree.mem_of_mem (h : xs.Agree ys) (ha : a ∈ xs) : a ∈ ys :=
  Agree.mem (fun b => (h b).symm) ha

/-- Other storage with the same slots changes nothing where there is a record. -/
theorem Agree.update_storage (h : xs.Agree ys) (ha : a ∈ xs) {s : Storage}
    (persistent : s.persistent = (xs.read a).storage.persistent)
    (transient : s.transient = (xs.read a).storage.transient) :
    (xs.update a fun record => { record with storage := s }).Agree ys := by
  intro b
  obtain ⟨record, hrecord⟩ := Option.isSome_iff_exists.1
    (Std.ExtTreeMap.isSome_getElem?_iff_mem.2 ha)
  have hread := read_eq_of_getElem? hrecord
  rw [getElem?_update]
  split
  · rename_i hab
    have hb := h b
    rw [← hab, hrecord] at hb
    rw [← hab, ← hb, hread]
    rw [hread] at persistent transient
    show some _ = some _
    unfold Account.cooled
    dsimp only
    rw [persistent, transient]
  · exact h b

end Accounts

namespace World

/-- The second world is the first one, but for touched addresses and slots. -/
structure Unchanged (base w : World) : Prop where
  accounts : w.accounts.Agree base.accounts
  logs : w.logs = base.logs

variable {base w w' : World} {self : Address} {sites : Address → Prop}

theorem Unchanged.refl (w : World) : w.Unchanged w := ⟨.refl _, rfl⟩

/-- What a static frame on an account with a record can do leaves the world unchanged. -/
theorem Unchanged.alters (h : base.Unchanged w) (record : self ∈ base.accounts)
    (ha : w.Alters self true sites w') : base.Unchanged w' := by
  cases ha with
  | touch a => exact ⟨h.accounts, h.logs⟩
  | storage s slots =>
      obtain ⟨persistent, transient⟩ := slots rfl
      exact ⟨h.accounts.update_storage (h.accounts.mem record) persistent transient, h.logs⟩
  | log topics data changeable => simp at changeable
  | count changeable countable => simp at changeable
  | construct address code site changeable free => simp at changeable
  | transfer receiver value moved harmless covered =>
      obtain rfl := Accounts.transfer?_harmless covered (harmless rfl)
      exact ⟨h.accounts, h.logs⟩

theorem Unchanged.reaches (h : base.Unchanged w) (record : self ∈ base.accounts)
    (hr : w.Reaches self true sites w') : base.Unchanged w' := by
  induction hr with
  | refl => exact h
  | tail _ ha ih => exact ih.alters record ha

end World

/-- A caller that restores the world as it was and creates nothing. -/
structure Suspended.Restores (s : Suspended) (base : World) : Prop where
  reversion : s.reversion.Agree base.accounts
  logMark : s.logMark = base.logs.size
  call : ∃ offset size, s.purpose = .call offset size

/-- Such a caller goes on in a world that is unchanged too. -/
theorem Suspended.Restores.settled {s : Suspended} {base w : World} (h : s.Restores base)
    (hw : base.Unchanged w) (gasLeft : Nat) (outcome : Outcome) :
    base.Unchanged (s.settled gasLeft outcome w) := by
  obtain ⟨_, heq⟩ | ⟨_, _, hcreate, _⟩ | heq := s.settled_cases gasLeft outcome w
  · rw [heq]
    exact hw
  · obtain ⟨_, _, hcall⟩ := h.call
    rw [hcreate] at hcall
    exact absurd hcall nofun
  · rw [heq, h.logMark]
    refine ⟨h.reversion, ?_⟩
    rw [World.revert_logs, hw.logs, Array.extract_size]

namespace Machine

/-- A static frame on an account with a record, in an unchanged world. -/
structure StaticIn (base : World) (a : Active) : Prop where
  static : a.frame.isStatic = true
  record : a.frame.account ∈ base.accounts
  world : base.Unchanged a.world

/-- A suspended static frame on an account with a record, that restores the world as it was. -/
structure StaticWaiting (base : World) (s : Suspended) : Prop extends s.Restores base where
  static : s.frame.isStatic = true
  record : s.frame.account ∈ base.accounts

variable {base : World} {a b : Active} {env : Environment} {s m : Machine}

theorem StaticIn.later (h : StaticIn base a) (hl : a.Later b) : StaticIn base b := by
  have hworld := hl.world
  rw [h.static] at hworld
  exact ⟨hl.frame.isStatic.trans h.static, hl.frame.account ▸ h.record,
    h.world.reaches h.record hworld⟩

theorem StaticIn.instruction (h : StaticIn base a) {next : Next}
    (hi : Action.instruction env a = .ok next b) : StaticIn base b := by
  obtain later | ⟨_, _, _, _, opens, _⟩ := Action.instruction_later_or_destroys hi
  · exact h.later later
  · -- a static frame destroys nothing
    exact absurd (opens.changeable.symm.trans h.static) (by decide)

/-- What a static frame or a static call enters is static and on an account with a record. -/
theorem staticIn_of_enters {callee : Frame} {purpose : Purpose} {reversion : Accounts}
    {depth : Nat} (h : a.Enters depth callee purpose reversion b)
    (hstatic : a.frame.isStatic = true ∨ a.operation? = some (.call .static))
    (record : a.operation? ≠ some (.call .static) → a.frame.account ∈ base.accounts)
    (ha : base.Unchanged a.world) :
    StaticIn base ⟨callee, b.world⟩ ∧ (waiting purpose reversion b).Restores base := by
  have enters := h.static hstatic
  have hb : base.Unchanged b.world := ⟨enters.moved ▸ ha.accounts, h.logs.trans ha.logs⟩
  have haccount : callee.account ∈ base.accounts := by
    obtain hmem | ⟨hself, hcall⟩ := enters.account
    · exact ha.accounts.mem_of_mem hmem
    · exact hself ▸ record hcall
  refine ⟨⟨enters.static, haccount, hb⟩, ?_, congrArg Array.size hb.logs, enters.call⟩
  exact enters.restores ▸ ha.accounts

/-- In a world that is unchanged, a static frame and all that runs above it leave it so. -/
theorem carries_static (base : World) (m : Machine) :
    m.CarriesEach (StaticIn base) (StaticWaiting base) where
  ok ha h := ha.instruction h
  error ha h := ha.later (Action.instruction_error_later h)
  enter := by
    intro callee purpose reversion b ha h
    have enters := Action.instruction_enters h
    have hb := ha.later enters.toLater
    obtain ⟨hcallee, restores⟩ :=
      staticIn_of_enters enters (.inl ha.static) (fun _ => ha.record) ha.world
    exact ⟨hcallee, restores, hb.static, hb.record⟩
  resume := by
    intro outcome b s f hs hb runs
    refine ⟨?_, ?_, hs.settled hb.world _ _⟩
    · exact runs.isStatic.trans hs.static
    · exact runs.account ▸ hs.record

/-- A step of a static callee, or of what runs above it, leaves the world unchanged, be it one that
comes back to its caller. -/
theorem unchanged_step {c : Suspended} {below : List Suspended}
    (holds : m.Holds (.uniform (StaticIn base) (StaticWaiting base)) (c :: below))
    (restores : c.Restores base) (room : m.Room) (deeper : below.length < m.depth) :
    base.Unchanged m.step.world := by
  by_cases hdepth : below.length < m.step.depth
  · exact (holds.stepped (fun _ => (carries_static base m).carries) room hdepth).active.world
  · obtain ⟨outcome, b, f, _, hb, _, _, hstep⟩ :=
      holds.back (carries_static base m).carries room deeper (Nat.le_of_not_lt hdepth)
    rw [hstep]
    exact restores.settled hb.world _ _

/-- Once a static call has entered its callee, the account records and logs stay what they were,
but for touched slots, in every state up to and including the first one back at the depth of the
call. -/
theorem static_call_changes_nothing {n : Nat} (reachable : s.Reachable)
    (operation : s.active.operation? = some (.call .static))
    (entered : s.step.depth = s.depth + 1)
    (deeper : ∀ k, 0 < k → k < n → s.depth < (step^[k] s).depth) :
    s.world.Unchanged (step^[n] s).world := by
  have running : s.result = none := running_of_depth_ne (entered ▸ Nat.succ_ne_self _)
  have first : ∀ {callee purpose reversion b},
      s.active.Enters s.depth callee purpose reversion b →
        StaticIn s.world ⟨callee, b.world⟩ ∧ (waiting purpose reversion b).Restores s.world :=
    fun enters => staticIn_of_enters enters (.inr operation) (absurd operation) (.refl _)
  -- the state before the last step is `s` itself or one of the callee's run
  rcases n with _ | _ | i
  · exact .refl _
  · obtain ⟨_, _, _, _, enters, hstep⟩ :=
      moves_deeper (moves_step running reachable.room) (entered ▸ Nat.lt_succ_self _)
    rw [Function.iterate_one, hstep]
    exact (first enters).1.world
  · have inside : ∀ k, 0 < k → k ≤ i + 1 → s.depth < (step^[k] s).depth :=
      fun k hk hk' => deeper k hk (Nat.lt_succ_of_le hk')
    obtain ⟨callee, purpose, reversion, caller, enters, holds⟩ :=
      holds_nested (I := .uniform (StaticIn s.world) _) reachable running (Nat.succ_pos i) inside
        (fun enters => (first enters).1) fun m => (carries_static s.world m).carries
    rw [Function.iterate_succ_apply']
    exact unchanged_step holds (first enters).2 (reachable.iterate (i + 1)).room
      (inside (i + 1) (Nat.succ_pos i) (Nat.le_refl _))

/-- A machine about to call statically an account that reads a slot. -/
def readingCall : Machine :=
  step^[6] (Transaction.ofFirst.opening 100000 (ofCodes
    ⟨#[0x5f, 0x5f, 0x5f, 0x5f, 0x60, 2, 0x5a, 0xfa]⟩ ⟨#[0x5f, 0x54, 0x00]⟩))

theorem readingCall_changes_nothing :
    (step^[4] readingCall).depth = readingCall.depth ∧
      readingCall.world.Unchanged (step^[4] readingCall).world := by
  have operation : readingCall.active.operation? = some (.call .static) := by decide +kernel
  have reachable : readingCall.Reachable :=
    (Reachable.prepared (Transaction.prepare_ofFirst _ _)).iterate 6
  have entered : readingCall.step.depth = readingCall.depth + 1 := by decide +kernel
  have deeper : ∀ k < 4, 0 < k → readingCall.depth < (step^[k] readingCall).depth := by
    decide +kernel
  refine ⟨by decide +kernel, ?_⟩
  exact static_call_changes_nothing reachable operation entered fun k hk hk' => deeper k hk' hk

end Machine

end EvmHarness
