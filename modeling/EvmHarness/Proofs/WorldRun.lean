import EvmHarness.Proofs.FrameRun
import Mathlib.Logic.Relation
set_option autoImplicit false

/-!
# How the world runs on

The changes that an instruction can make to the world, one at a time.  All but the removal of an
account are listed in `World.Alters`, each with what the frame must be for it: a static frame can
only touch addresses and storage slots, and only a creation puts an account under construction.  An
instruction makes a chain of such changes, so what every change keeps, every instruction keeps.
-/

namespace EvmHarness

open Relation (ReflTransGen)

/-- One change to the world by a frame that runs for an account: the second world is the first
one changed.  Accounts are put under construction at the given sites only. -/
inductive World.Alters (self : Address) (isStatic : Bool) (sites : Address → Prop) (w : World) :
    World → Prop where
  | touch (a : Address) : Alters self isStatic sites w (w.touch a)
  /-- other storage of the account itself, in a static frame with other touches only -/
  | storage (s : Storage)
      (slots : isStatic = true → s.persistent = (w.accounts.read self).storage.persistent ∧
        s.transient = (w.accounts.read self).storage.transient) :
      Alters self isStatic sites w
        (w.mapAccounts (·.update self fun record => { record with storage := s }))
  | log (topics : List Hash) (data : ByteArray) (changeable : isStatic = false) :
      Alters self isStatic sites w (w.addLog ⟨self, topics, data⟩)
  /-- a creation counted, where the count can still grow -/
  | count (changeable : isStatic = false)
      (countable : (w.accounts.read self).nonce ≠ Saturating.limit) :
      Alters self isStatic sites w (w.mapAccounts (·.countCreation self))
  /-- the record of a new account, at an address that is not in use -/
  | construct (address : Address) (code : ByteArray) (site : sites address)
      (changeable : isStatic = false)
      (free : ¬ w.accounts[address]?.any Account.isTaken = true) :
      Alters self isStatic sites w (w.mapAccounts (·.update address (·.underConstruction code)))
  /-- value sent by the account itself, in a static frame none or only to itself -/
  | transfer (receiver : Address) (value : Word) (moved : Accounts)
      (harmless : isStatic = true → value = 0 ∨ self = receiver)
      (covered : w.accounts.transfer? self receiver value = some moved) :
      Alters self isStatic sites w (w.mapAccounts fun _ => moved)

/-- Changes to the world one after another. -/
abbrev World.Reaches (self : Address) (isStatic : Bool) (sites : Address → Prop) :
    World → World → Prop :=
  ReflTransGen (World.Alters self isStatic sites)

/-- More sites allow for more changes. -/
theorem World.Reaches.mono {self : Address} {isStatic : Bool} {sites more : Address → Prop}
    {w w' : World} (h : w.Reaches self isStatic sites w') (le : ∀ a, sites a → more a) :
    w.Reaches self isStatic more w' := by
  refine ReflTransGen.mono (fun u v ha => ?_) _ _ h
  cases ha with
  | touch a => exact .touch a
  | storage s slots => exact .storage s slots
  | log topics data changeable => exact .log topics data changeable
  | count changeable countable => exact .count changeable countable
  | construct address code site changeable free =>
      exact .construct address code (le address site) changeable free
  | transfer receiver value moved harmless covered =>
      exact .transfer receiver value moved harmless covered

/-- No account is put under construction. -/
def noSites (_ : Address) : Prop := False

/-- An account may be put under construction anywhere. -/
def anySite (_ : Address) : Prop := True

namespace Active

/-- The second state is a later one of the same frame in its world. -/
structure Later (a b : Active) : Prop where
  frame : a.frame.Later b.frame
  world : World.Reaches a.frame.account a.frame.isStatic anySite a.world b.world

namespace Later

variable {a b c : Active}

theorem trans (hab : a.Later b) (hbc : b.Later c) : a.Later c := by
  refine ⟨hab.frame.trans hbc.frame, hab.world.trans ?_⟩
  have hw := hbc.world
  rwa [hab.frame.account, hab.frame.isStatic] at hw

end Later

/-- The second state is a later one of the same frame, which has not moved but by jumping, in its
world, in which no account has been put under construction. -/
structure Runs (a b : Active) : Prop where
  frame : a.frame.Runs b.frame
  world : World.Reaches a.frame.account a.frame.isStatic noSites a.world b.world

namespace Runs

variable {a b c : Active}

theorem refl (a : Active) : a.Runs a := ⟨.refl _, .refl⟩

theorem trans (hab : a.Runs b) (hbc : b.Runs c) : a.Runs c := by
  refine ⟨hab.frame.trans hbc.frame, hab.world.trans ?_⟩
  have hw := hbc.world
  rwa [hab.frame.account, hab.frame.isStatic] at hw

instance : Std.Refl Runs := ⟨refl⟩

instance : IsTrans Active Runs := ⟨fun _ _ _ => trans⟩

theorem later (h : a.Runs b) : a.Later b := ⟨h.frame.toLater, h.world.mono fun _ => False.elim⟩

end Runs

/-- The sites at which what comes next starts initial code. -/
def sitesOf : EStateM.Result Fault Active Next → Address → Prop
  | .ok (.enter _ purpose _) _ => fun a => purpose = .create a
  | _ => noSites

/-- The end of an instruction is a later state of the frame, and no account has been put under
construction but the one whose initial code comes next. -/
structure Leads (a : Active) (r : EStateM.Result Fault Active Next) : Prop where
  frame : a.frame.Runs (stateAfter r).frame
  world : World.Reaches a.frame.account a.frame.isStatic (sitesOf r) a.world (stateAfter r).world

theorem Leads.later {a : Active} {r : EStateM.Result Fault Active Next} (h : a.Leads r) :
    a.Later (stateAfter r) := ⟨h.frame.toLater, h.world.mono fun _ _ => trivial⟩

theorem Runs.leads {a : Active} {r : EStateM.Result Fault Active Next}
    (h : a.Runs (stateAfter r)) : a.Leads r := ⟨h.frame, h.world.mono fun _ => False.elim⟩

theorem Runs.trans_leads {a b : Active} {r : EStateM.Result Fault Active Next} (hab : a.Runs b)
    (h : b.Leads r) : a.Leads r := by
  have hw := h.world
  rw [hab.frame.account, hab.frame.isStatic] at hw
  exact ⟨hab.frame.trans h.frame, (hab.world.mono fun _ => False.elim).trans hw⟩

/-- The second state is a later one with the same stack, account records and logs: addresses have
been touched, memory has grown and gas has been spent. -/
structure Pays (a b : Active) : Prop extends a.Runs b where
  stack : b.frame.stack = a.frame.stack
  accounts : b.world.accounts = a.world.accounts
  logs : b.world.logs = a.world.logs

namespace Pays

variable {a b c : Active}

theorem refl (a : Active) : a.Pays a := ⟨.refl a, rfl, rfl, rfl⟩

theorem trans (hab : a.Pays b) (hbc : b.Pays c) : a.Pays c :=
  ⟨hab.toRuns.trans hbc.toRuns, hbc.stack.trans hab.stack, hbc.accounts.trans hab.accounts,
    hbc.logs.trans hab.logs⟩

instance : Std.Refl Pays := ⟨refl⟩

instance : IsTrans Active Pays := ⟨fun _ _ _ => trans⟩

end Pays

/-- The second state is a later one, if the frame may change something at all. -/
def RunsUnlessStatic (a b : Active) : Prop := a.frame.isStatic = false → a.Runs b

instance : Std.Refl RunsUnlessStatic := ⟨fun a _ => .refl a⟩

instance : IsTrans Active RunsUnlessStatic := by
  refine ⟨fun a b c hab hbc ha => ?_⟩
  have hb : b.frame.isStatic = false := by rw [(hab ha).frame.isStatic, ha]
  exact (hab ha).trans (hbc hb)

theorem Runs.unlessStatic {a b : Active} (h : a.Runs b) : a.RunsUnlessStatic b := fun _ => h

end Active

namespace Action

open Active (Runs RunsUnlessStatic Pays)

variable {α β : Type}

theorem Keeps.runs {act : Action α} (h : Keeps Pays act) : Keeps Runs act :=
  h.mono fun _ _ => Pays.toRuns

theorem Keeps.unlessStatic {act : Action α} (h : Keeps Runs act) : Keeps RunsUnlessStatic act :=
  h.mono fun _ _ => Runs.unlessStatic

/-! ## The parts of instructions -/

theorem keeps_runs_onFrame {act : FrameM α} (h : EvmHarness.Keeps Frame.Runs act) :
    Keeps Runs (onFrame act) :=
  keeps_onFrame h fun _ _ _ hl => ⟨hl, .refl⟩

theorem keeps_pop : Keeps Runs pop := keeps_runs_onFrame FrameM.keeps_pop

theorem keeps_push (w : Word) : Keeps Runs (push w) := keeps_runs_onFrame (FrameM.keeps_push w)

theorem keeps_pays_onFrame {act : FrameM α} (h : EvmHarness.Keeps Frame.Pays act) :
    Keeps Pays (onFrame act) :=
  keeps_onFrame h fun _ _ _ hp => ⟨⟨hp.toRuns, .refl⟩, hp.stack, rfl, rfl⟩

theorem pays_charge (amount : Nat) : Keeps Pays (charge amount) :=
  keeps_pays_onFrame (FrameM.pays_charge amount)

theorem charge_eq_ok {amount : Nat} {env : Environment} {a b : Active} {u : Unit}
    (h : charge amount env a = .ok u b) :
    amount ≤ a.frame.gas ∧ b = { a with frame := { a.frame with gas := a.frame.gas - amount } } := by
  obtain ⟨hf, hw⟩ := onFrame_eq_ok.1 h
  obtain ⟨hle, hg⟩ := FrameM.charge_eq_ok.1 hf
  rcases b with ⟨g, w⟩
  exact ⟨hle, by rw [← hg, ← hw]⟩

theorem push_apply (w : Word) (env : Environment) (a : Active) :
    push w env a =
      if a.frame.stack.size < Stack.limit then
        .ok () { a with frame := { a.frame with stack := ⟨w :: a.frame.stack.words⟩ } }
      else .error .stackLimitExceeded a := by
  have hf := FrameM.push_apply w a.frame
  by_cases h : a.frame.stack.size < Stack.limit
  · rw [if_pos h] at hf ⊢
    exact onFrame_of_eq_ok hf env
  · rw [if_neg h] at hf ⊢
    exact onFrame_of_eq_error hf env

theorem pays_region (offset size : Word) : Keeps Pays (region offset size) :=
  keeps_pays_onFrame (FrameM.pays_region offset size)

theorem region_eq_ok {offset size : Word} {env : Environment} {a b : Active} {range : Nat × Nat}
    (h : region offset size env a = .ok range b) :
    range.2 = size.toNat ∧ range.1 + range.2 ≤ Memory.addressLimit ∧
      b.frame.memory.covers range.1 range.2 = true :=
  FrameM.region_eq_ok (onFrame_eq_ok.1 h).1

theorem keeps_modifyWorld {R : Active → Active → Prop} {change : World → World}
    (h : ∀ a : Active, R a { a with world := change a.world }) : Keeps R (modifyWorld change) :=
  fun _ a => h a

theorem pays_touch (address : Address) : Keeps Pays (touch address) := by
  refine Keeps.get.bind fun s => Keeps.bind (keeps_modifyWorld fun a => ?_) fun _ => .pure _
  exact ⟨⟨.refl _, .single (.touch address)⟩, rfl, rfl, rfl⟩

theorem pays_accessCost (address : Address) : Keeps Pays (accessCost address) :=
  (pays_touch address).bind fun _ => .pure _

theorem recordAt_apply (address : Address) (env : Environment) (a : Active) :
    recordAt address env a =
      match a.world.accounts[address]? with
      | some record => .ok (some record) a
      | none =>
        if env.setting.strict then .error (.unknownAccount address) a else .ok none a := by
  show (match a.world.accounts[address]? with
    | some record => pure (some record)
    | none => do if (← read).setting.strict then throw (.unknownAccount address) else pure none :
    Action (Option Account)) env a = _
  cases a.world.accounts[address]? with
  | some record => rfl
  | none =>
      show (if env.setting.strict then throw (.unknownAccount address) else pure none :
        Action (Option Account)) env a = if env.setting.strict then _ else _
      cases env.setting.strict <;> rfl

theorem recordAt_eq_ok {address : Address} {env : Environment} {a b : Active}
    {record : Option Account} (h : recordAt address env a = .ok record b) :
    record = a.world.accounts[address]? ∧ b = a := by
  rw [recordAt_apply] at h
  cases hr : a.world.accounts[address]? with
  | some found =>
      rw [hr] at h
      obtain ⟨rfl, rfl⟩ := EStateM.Result.ok.inj h
      exact ⟨rfl, rfl⟩
  | none =>
      rw [hr] at h
      cases hs : env.setting.strict with
      | true =>
          rw [hs] at h
          exact absurd h nofun
      | false =>
          rw [hs] at h
          obtain ⟨rfl, rfl⟩ := EStateM.Result.ok.inj h
          exact ⟨rfl, rfl⟩

theorem pays_recordAt (address : Address) : Keeps Pays (recordAt address) := by
  intro env a
  rw [recordAt_apply]
  cases a.world.accounts[address]? with
  | some record => exact .refl a
  | none => cases env.setting.strict <;> exact .refl a

theorem pays_visit (address : Address) : Keeps Pays (visit address) :=
  (pays_accessCost address).bind fun _ => (pays_charge _).bind fun _ => pays_recordAt address

/-- After the demand, the frame may change something. -/
theorem keeps_demandChangeable_bind {f : Unit → Action β} (h : Keeps RunsUnlessStatic (f ())) :
    Keeps Runs (demandChangeable >>= f) := by
  intro env a
  rw [bind_apply, stateAfter_bind, demandChangeable_apply]
  cases hs : a.frame.isStatic with
  | true => exact .refl a
  | false => exact h env a hs

theorem onStorage_apply (act : Storage → α × Storage) (env : Environment) (a : Active) :
    onStorage act env a =
      .ok (act (a.world.accounts.read a.frame.account).storage).1
        { a with world := a.world.mapAccounts (·.update a.frame.account fun record =>
          { record with storage := (act (a.world.accounts.read a.frame.account).storage).2 }) } :=
  rfl

/-- Touching slots is allowed to every frame. -/
theorem keeps_onStorage (act : Storage → α × Storage)
    (slots : ∀ s, (act s).2.persistent = s.persistent ∧ (act s).2.transient = s.transient) :
    Keeps Runs (onStorage act) := by
  intro env a
  rw [onStorage_apply]
  exact ⟨.refl _, .single (.storage _ fun _ => slots _)⟩

theorem keeps_onStorage_unlessStatic (act : Storage → α × Storage) :
    Keeps RunsUnlessStatic (onStorage act) := by
  intro env a hs
  rw [onStorage_apply]
  refine ⟨.refl _, .single (.storage _ fun h => ?_)⟩
  simp [hs] at h

/-! ## The operations on accounts and logs -/

theorem keeps_readAccount (r : AccountReading) : Keeps Runs (readAccount r) :=
  keeps_pop.bind fun _ => (pays_visit _).runs.bind fun _ => (keeps_push _).bind fun _ => .pure _

theorem keeps_readSelfBalance : Keeps Runs readSelfBalance :=
  Keeps.get.bind fun _ => (keeps_push _).bind fun _ => .pure _

theorem keeps_copyAccountCode : Keeps Runs copyAccountCode := by
  refine keeps_pop.bind fun _ => keeps_pop.bind fun _ => keeps_pop.bind fun _ => ?_
  refine keeps_pop.bind fun _ => (pays_visit _).runs.bind fun record => ?_
  exact (keeps_runs_onFrame (FrameM.keeps_copyIn _ _ _ _)).bind fun _ => .pure _

theorem keeps_loadSlot : Keeps Runs loadSlot := by
  refine keeps_pop.bind fun key => ?_
  refine (keeps_onStorage (·.readCost key) fun _ => ⟨rfl, rfl⟩).bind fun _ => ?_
  refine (keeps_onStorage (·.load key) fun _ => ⟨rfl, rfl⟩).bind fun _ => ?_
  exact (pays_charge _).runs.bind fun _ => (keeps_push _).bind fun _ => .pure _

theorem keeps_storeSlot : Keeps Runs storeSlot := by
  refine keeps_demandChangeable_bind ?_
  have write : Keeps RunsUnlessStatic (do
      let key ← pop
      let value ← pop
      charge (← onStorage (·.writeCost key value))
      onStorage fun storage => ((), storage.store key value)
      return .proceed : Action Next) := by
    refine keeps_pop.unlessStatic.bind fun key => ?_
    refine keeps_pop.unlessStatic.bind fun value => ?_
    refine (keeps_onStorage_unlessStatic _).bind fun cost => ?_
    refine (pays_charge cost).runs.unlessStatic.bind fun _ => ?_
    exact (keeps_onStorage_unlessStatic _).bind fun _ => .pure _
  exact Keeps.get.bind fun a => .ite ((Keeps.throw _).bind fun _ => write) write

theorem keeps_loadTransient : Keeps Runs loadTransient := by
  refine keeps_pop.bind fun key => ?_
  refine (keeps_onStorage (fun s => (s.transientValue key, s)) fun _ => ⟨rfl, rfl⟩).bind
    fun _ => ?_
  exact (keeps_push _).bind fun _ => .pure _

theorem keeps_storeTransient : Keeps Runs storeTransient := by
  refine keeps_demandChangeable_bind ?_
  refine keeps_pop.unlessStatic.bind fun key => ?_
  refine keeps_pop.unlessStatic.bind fun value => ?_
  exact (keeps_onStorage_unlessStatic _).bind fun _ => .pure _

theorem keeps_writeLog (topics : Nat) : Keeps Runs (writeLog topics) := by
  refine keeps_demandChangeable_bind ?_
  refine keeps_pop.unlessStatic.bind fun offset => ?_
  refine keeps_pop.unlessStatic.bind fun size => ?_
  refine (keeps_runs_onFrame (FrameM.keeps_popMany topics)).unlessStatic.bind fun words => ?_
  refine (pays_region _ _).runs.unlessStatic.bind fun range => ?_
  refine (pays_charge _).runs.unlessStatic.bind fun _ => ?_
  refine Keeps.get_bind fun env a hs => ?_
  exact ⟨.refl _, .single (.log words _ hs)⟩

end Action

end EvmHarness
