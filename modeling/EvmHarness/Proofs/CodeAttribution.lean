import EvmHarness.Proofs.CoverageMap
import EvmHarness.Proofs.HeldCode
import EvmHarness.Proofs.Rollback
set_option autoImplicit false

/-!
# Points belong to the code that ran

The digest under which a point is recorded is read from the record that the running code came from,
not kept in the frame.  As long as no frame destroys the account there, that record goes on holding
the code: nothing is created over it, and what comes back after a failure is what the callers of the
failed frame ran from.  A failure also brings back an account that was destroyed before it.  While a
destroyed account has no record, points are recorded as those of unknown code.  But any instruction
that writes to the account brings an empty record back, and then the points of code that still runs
further out are recorded under the digest of no code.
-/

namespace EvmHarness

namespace Machine

/-- The next instruction is a self-destruction that is carried out, of this account. -/
def Destroys (m : Machine) (a : Address) : Prop :=
  m.result = none ∧ m.active.operation? = some .selfDestruct ∧ m.frame.account = a ∧
    ∃ next b, Action.instruction m.environment m.active = .ok next b

/-- The account has been destroyed before step `n` of the run, and that still stands. -/
def Gone (m : Machine) (n : Nat) (a : Address) : Prop :=
  ∃ k < n, (step^[k] m).Destroys a ∧ m.Stands k n

/-- The records hold the code of the frame, unless the account that it came from is gone. -/
def Traces (gone : Address → Prop) (xs : Accounts) (f : Frame) : Prop :=
  gone f.codeAccount ∨ xs.Identifies f.codeAccount f.code

/-- The records hold the code of a frame and of its callers, which all have code. -/
structure Attributed (gone : Address → Prop) (callers : List Suspended) (f : Frame)
    (xs : Accounts) : Prop where
  names : xs.NamesHeld
  own : Traces gone xs f
  callers : ∀ s ∈ callers, s.frame.code.isEmpty = false ∧ Traces gone xs s.frame

/-- What a caller would bring back holds its code and that of its callers; and where it waits for
the code of a new account, the address was not in use. -/
structure WaitsAttributed (gone : Address → Prop) (callers : List Suspended) (s : Suspended) :
    Prop where
  attributed : Attributed gone callers s.frame s.reversion
  coded : s.frame.code.isEmpty = false
  free : ∀ a, s.purpose = .create a → (s.reversion.read a).isTaken = false

variable {gone gone' : Address → Prop} {callers : List Suspended} {f g : Frame} {s : Suspended}
  {xs ys : Accounts} {a : Address} {m : Machine}

/-! ## One change -/

theorem Traces.mono (h : Traces gone xs f) (le : ∀ a, gone a → gone' a) : Traces gone' xs f :=
  h.imp_left (le _)

theorem Attributed.mono (h : Attributed gone callers f xs) (le : ∀ a, gone a → gone' a) :
    Attributed gone' callers f xs where
  names := h.names
  own := h.own.mono le
  callers s hs := (h.callers s hs).imp_right fun traces => traces.mono le

theorem WaitsAttributed.mono (h : WaitsAttributed gone callers s) (le : ∀ a, gone a → gone' a) :
    WaitsAttributed gone' callers s := ⟨h.attributed.mono le, h.coded, h.free⟩

theorem Traces.later (h : Traces gone xs f) (later : f.Later g) : Traces gone xs g := by
  rw [Traces, later.codeAccount, later.code]
  exact h

theorem Traces.evolves {sites : Address → Prop} (h : Traces gone xs f)
    (evolves : xs.Evolves sites ys) (safe : f.code.isEmpty = false ∨ ¬ sites f.codeAccount) :
    Traces gone ys f := by
  apply h.imp_right
  intro held
  exact held.inheritsAt (evolves.inherits _ (safe.imp_left held.bears.taken))

theorem Attributed.evolves {sites : Address → Prop} (h : Attributed gone callers f xs)
    (evolves : xs.Evolves sites ys) (later : f.Later g)
    (safe : f.code.isEmpty = false ∨ ¬ sites f.codeAccount) : Attributed gone callers g ys where
  names := h.names.evolves evolves
  own := (h.own.evolves evolves safe).later later
  callers s hs := by
    -- a caller has code, so its record is in use and no site of a creation
    obtain ⟨coded, traces⟩ := h.callers s hs
    exact ⟨coded, traces.evolves evolves (.inl coded)⟩

/-- An account that is destroyed is gone, and nothing happens to the code of the others. -/
theorem Attributed.destroy (h : Attributed gone callers f xs) (later : f.Later g)
    (destroyed : gone a) (beneficiary : Address) :
    Attributed gone callers g (xs.destroy a beneficiary) := by
  have traces : ∀ f, Traces gone xs f → Traces gone (xs.destroy a beneficiary) f := by
    intro f hf
    by_cases own : a = f.codeAccount
    · exact .inl (own ▸ destroyed)
    · exact hf.imp_right fun held => held.inheritsAt (xs.inheritsAt_destroy beneficiary own)
  refine ⟨h.names.destroy a beneficiary, (traces f h.own).later later, fun s hs => ?_⟩
  exact (h.callers s hs).imp_right (traces _)

/-- The callee of a call or creation stands above its caller. -/
theorem Attributed.enter (h : Attributed gone callers f xs) (coded : f.code.isEmpty = false)
    {callee : Frame} (held : xs.Identifies callee.codeAccount callee.code) (hs : s.frame = f) :
    Attributed gone (s :: callers) callee xs := by
  refine ⟨h.names, .inr held, ?_⟩
  intro t ht
  rcases List.mem_cons.1 ht with rfl | ht
  · rw [hs]
    exact ⟨coded, h.own⟩
  · exact h.callers t ht

/-- Once code is deposited at an address that was not in use, no frame further out that is not gone
runs from there. -/
theorem Traces.deposit {zs : Accounts} (h : Traces gone zs f) (was : Traces gone xs f)
    (coded : f.code.isEmpty = false) (free : (xs.read a).isTaken = false) (code : ByteArray) :
    Traces gone (zs.update a (·.withCode code)) f := by
  rcases was with away | held
  · exact .inl away
  · have other : a ≠ f.codeAccount := by
      rintro rfl
      rw [held.bears.taken coded] at free
      exact Bool.false_ne_true free.symm
    apply h.imp_right
    intro held
    exact held.inheritsAt (zs.inheritsAt_update fun same => absurd same other)

/-- A caller that goes on finds its code and that of its callers: what its callee leaves, or what
it brings back itself. -/
theorem WaitsAttributed.settled {w : World} {gasLeft : Nat} {outcome : Outcome}
    (hs : WaitsAttributed gone callers s)
    (h : ¬ s.Refuses gasLeft outcome w → Attributed gone (s :: callers) f w.accounts)
    (later : (s.given gasLeft).Later g) :
    Attributed gone callers g (s.settled gasLeft outcome w).accounts := by
  have resumed : ∀ xs, Traces gone xs s.frame → Traces gone xs g := by
    intro xs traces
    have given : Traces gone xs (s.given gasLeft) := traces
    exact given.later later
  have reverted : Attributed gone callers g s.reversion :=
    ⟨hs.attributed.names, resumed _ hs.attributed.own, hs.attributed.callers⟩
  by_cases refuses : s.Refuses gasLeft outcome w
  · rw [Suspended.settled_of_refuses refuses]
    exact reverted
  · have h := h refuses
    have own := (h.callers s List.mem_cons_self).2
    have others : ∀ t ∈ callers, t.frame.code.isEmpty = false ∧ Traces gone w.accounts t.frame :=
      fun t ht => h.callers t (List.mem_cons_of_mem s ht)
    obtain ⟨_, heq⟩ | ⟨address, code, hcreate, _, heq⟩ | heq := s.settled_cases gasLeft outcome w
    · rw [heq]
      exact ⟨h.names, resumed _ own, others⟩
    · -- the new code is at an address from which none of these frames runs
      rw [heq]
      have free := hs.free address hcreate
      refine ⟨h.names.deposit address code, ?_, ?_⟩
      · exact resumed _ (own.deposit hs.attributed.own hs.coded free code)
      · intro t ht
        obtain ⟨coded, traces⟩ := others t ht
        exact ⟨coded, traces.deposit (hs.attributed.callers t ht).2 coded free code⟩
    · rw [heq]
      exact reverted

/-! ## One instruction -/

/-- Past the end of its code a frame stops, so one that enters a callee has code. -/
theorem coded_of_nests {a : Active} (h : ∃ op, a.operation? = some op ∧ op.nests = true) :
    a.frame.code.isEmpty = false := by
  obtain ⟨op, hop, nests⟩ := h
  rw [Bool.eq_false_iff]
  intro empty
  have size : a.frame.code.size = 0 := of_decide_eq_true empty
  have past : Code.opcodeAt a.frame.code a.frame.pc = 0 :=
    Bytes.byteAt_of_le (by rw [size]; exact Nat.zero_le _)
  have stops : a.operation? = some .stop := by
    rw [Active.operation?, past]
    rfl
  rw [stops] at hop
  obtain rfl := Option.some.inj hop
  exact absurd nests Bool.false_ne_true

/-- A call or creation that fails brings back records that hold the same code. -/
theorem evolves_restored (a : Active) (depth : Nat) :
    a.world.accounts.Evolves noSites (a.restored depth) := by
  refine .of_inheritsAt fun b => ?_
  unfold Active.restored
  split
  · split
    · exact Accounts.inheritsAt_countCreation _ _ _
    · exact .refl _ _
  · exact .refl _ _

/-- An instruction after which the frame goes on leaves the code of every frame. -/
theorem Attributed.proceed {b : Active} (ha : Attributed gone callers m.frame m.accounts)
    (h : Action.instruction m.environment m.active = .ok .proceed b) :
    Attributed gone callers b.frame b.world.accounts := by
  obtain ⟨op, _, _, leads⟩ | ⟨hnext, _⟩ := Action.instruction_leads_or_destroys h
  · exact ha.evolves leads.world.evolves (Action.instruction_frame h) (.inr id)
  · exact absurd hnext nofun

/-- So does one that ends its frame, but for the account that it destroys. -/
theorem Attributed.ends {outcome : Outcome} {b : Active}
    (ha : Attributed gone callers m.frame m.accounts) (running : m.result = none)
    (destroys : ∀ a, m.Destroys a → gone a) (ends : m.Ends outcome b) :
    Attributed gone callers b.frame b.world.accounts := by
  cases ends with
  | halt h =>
      obtain ⟨op, _, _, leads⟩ | ⟨_, hop, beneficiary, c, opens, rfl⟩ :=
        Action.instruction_leads_or_destroys h
      · exact ha.evolves leads.world.evolves (Action.instruction_frame h) (.inr id)
      · have destroyed := destroys _ ⟨running, hop, rfl, _, _, h⟩
        have ended := ha.destroy opens.frame destroyed beneficiary
        have same : c.world.accounts = m.accounts := opens.accounts
        rw [← same] at ended
        exact ended
  | fault h =>
      obtain ⟨later, reaches⟩ := Action.instruction_eq_error h
      exact ha.evolves reaches.evolves later (.inr id)

/-- A callee that is entered runs code that a record holds, and its caller waits for it. -/
theorem Attributed.entered {callee : Frame} {purpose : Purpose} {reversion : Accounts} {b : Active}
    (ha : Attributed gone callers m.frame m.accounts)
    (h : Action.instruction m.environment m.active = .ok (.enter callee purpose reversion) b) :
    Attributed gone (waiting purpose reversion b :: callers) callee b.world.accounts ∧
      WaitsAttributed gone callers (waiting purpose reversion b) := by
  have enters := Action.instruction_enters h
  have coded : m.frame.code.isEmpty = false := coded_of_nests enters.nests
  have later : m.frame.Later b.frame := enters.toLater.frame
  have coded' : b.frame.code.isEmpty = false := by
    rw [later.code]
    exact coded
  -- the caller stands below the callee, and would find its code again after a failure
  have after : Attributed gone callers b.frame b.world.accounts :=
    ha.evolves enters.sites.evolves later (.inl coded)
  have before : Attributed gone callers b.frame reversion := by
    rw [enters.restores]
    exact ha.evolves (evolves_restored m.active _) later (.inl coded)
  cases Action.instruction_knows h with
  | record found code coded_callee =>
      rw [code] at coded_callee
      have held := ha.names.identifies found coded_callee
      have kept := enters.sites.evolves.inherits _ (.inl (held.bears.taken coded_callee))
      rw [← code] at held
      exact ⟨after.enter coded' (held.inheritsAt kept) rfl, before, coded', nofun⟩
  | construction begins =>
      refine ⟨after.enter coded' (Accounts.identifies_of_begins begins) rfl, before, coded', ?_⟩
      intro a ha
      obtain rfl := Purpose.create.inj ha
      exact Accounts.isTaken_eq_false begins.free

/-! ## The whole run -/

variable {tx : Transaction} {gasLimit : UInt64} {before : Machine}

/-- The first frame of a transaction runs the code of its destination. -/
theorem attributed_opening (named : before.accounts.Named) (tx : Transaction)
    (gasLimit : UInt64) :
    Attributed gone [] (tx.opening gasLimit before).frame
      (tx.opening gasLimit before).accounts := by
  have names := tx.named_openingAccounts named
  refine ⟨names.namesHeld, .inr ⟨?_, ?_⟩, nofun⟩
  · exact tx.mem_openingAccounts before.accounts
  · exact Account.NamesCode.bears (Accounts.Each.read names Account.namesCode_empty)

/-- Where a step takes nothing back, what is gone stays so, and what the step destroys is gone. -/
theorem gone_succ {n : Nat} (fine : ¬ (step^[n] m).FailsNested)
    (h : m.Gone n a ∨ (step^[n] m).Destroys a) : m.Gone (n + 1) a := by
  obtain ⟨k, hk, destroys, stands⟩ | destroys := h
  · exact ⟨k, Nat.lt_succ_of_lt hk, destroys, stands.succ fine⟩
  · exact ⟨n, Nat.lt_succ_self n, destroys, (Stands.refl m n).succ fine⟩

/-- A caller waits with what it found when it entered its callee, and what was gone then is gone
now. -/
theorem waitsAttributed_since (h : tx.prepare gasLimit before = .ok m) {n : Nat}
    {rest : List Suspended} (callers : (step^[n] m).suspended = s :: rest)
    (attributed : ∀ j < n, Attributed (m.Gone j) (step^[j] m).suspended (step^[j] m).frame
      (step^[j] m).accounts) : WaitsAttributed (m.Gone (n + 1)) rest s := by
  have top : s :: rest <:+ (step^[n] m).suspended := callers ▸ List.suffix_rfl
  obtain ⟨j, hj, suspends, waits⟩ := waiting_since h top
  have entering := attributed j hj
  obtain ⟨_, below, callee, purpose, reversion, b, hs, entered⟩ := id suspends
  rw [below] at entering
  have waiting := (entering.entered entered).2
  rw [← hs] at waiting
  refine waiting.mono ?_
  rintro a ⟨k, hk, destroys, stands⟩
  exact ⟨k, by omega, destroys, stands.since (Nat.le_of_lt hk) suspends waits⟩

/-- At every step of a run, the records hold the code of every frame but for accounts that are
gone.  What a frame brings back when it fails are the records from when it was entered, so the
induction is on all earlier steps. -/
theorem attributed_iterate (named : before.accounts.Named) (h : tx.prepare gasLimit before = .ok m)
    (n : Nat) :
    Attributed (m.Gone n) (step^[n] m).suspended (step^[n] m).frame (step^[n] m).accounts := by
  induction n using Nat.strongRecOn with
  | ind n ih =>
      cases n with
      | zero =>
          obtain ⟨_, rfl⟩ := Transaction.prepare_eq_ok.1 h
          exact attributed_opening named tx gasLimit
      | succ n =>
          have now (fine : ¬ (step^[n] m).FailsNested) : Attributed (m.Gone (n + 1))
              (step^[n] m).suspended (step^[n] m).frame (step^[n] m).accounts :=
            (ih n (Nat.lt_succ_self n)).mono fun a gone => gone_succ fine (.inl gone)
          rw [Function.iterate_succ_apply']
          cases hr : (step^[n] m).result with
          | some outcome =>
              rw [step_eq_self hr]
              refine now fun fails => ?_
              rw [fails.running] at hr
              exact Option.some_ne_none _ hr.symm
          | none =>
              have ended {outcome : Outcome} {b : Active} (ends : (step^[n] m).Ends outcome b)
                  (fine : ¬ (step^[n] m).FailsNested) : Attributed (m.Gone (n + 1))
                    (step^[n] m).suspended b.frame b.world.accounts :=
                (now fine).ends hr (fun a destroys => gone_succ fine (.inr destroys)) ends
              have moves := moves_step hr ((Reachable.prepared h).iterate n).room
              generalize (step^[n] m).step = next at moves ⊢
              cases moves with
              | proceed onward => exact (now (not_failsNested_of_ok onward nofun)).proceed onward
              | enter onward => exact ((now (not_failsNested_of_ok onward nofun)).entered onward).1
              | finish ends alone => exact ended ends (not_failsNested_of_alone alone)
              | resume ends callers runs =>
                  have waited := waitsAttributed_since h callers fun j hj =>
                    ih j (Nat.lt_succ_of_lt hj)
                  rw [callers] at ended
                  exact waited.settled
                    (fun taken => ended ends (not_failsNested_of_taken ends callers taken))
                    runs.toLater

/-- Where every record names its code before a transaction, the points of the run are recorded as
follows.  If there is no record at the address that the running code came from, the point is one of
unknown code.  If there is one, the point is recorded under the digest of that code, unless the
account has been destroyed since the transaction began and that has not been taken back, so that the
record has been put there again. -/
theorem recorded_under_running_code (named : before.accounts.Named)
    (h : tx.prepare gasLimit before = .ok m) (n : Nat) :
    ∃ key,
      (∀ c : Coverage, c.Joins [(key, (step^[n] m).frame.pc)] (Coverage.record (step^[n] m) c)) ∧
      ((step^[n] m).frame.codeAccount ∉ (step^[n] m).accounts → key = Coverage.unknownCode) ∧
      ((step^[n] m).frame.codeAccount ∈ (step^[n] m).accounts →
        key = Keccak.digest (step^[n] m).frame.code ∨
          ∃ k < n, (step^[k] m).Destroys (step^[n] m).frame.codeAccount ∧ m.Stands k n) := by
  have own := (attributed_iterate named h n).own
  generalize step^[n] m = now at own ⊢
  refine ⟨(Coverage.pointOf now).1, fun c => ?_, fun absent => ?_, fun present => ?_⟩
  · rw [Coverage.record_eq_addAll]
    exact c.joins_addAll [Coverage.pointOf now]
  · have missing : now.accounts[now.frame.codeAccount]? = none :=
      Std.ExtTreeMap.getElem?_eq_none absent
    rw [Coverage.pointOf, missing]
    rfl
  · apply own.symm.imp_left
    intro held
    obtain ⟨record, found⟩ := Option.isSome_iff_exists.1
      (Std.ExtTreeMap.isSome_getElem?_iff_mem.2 present)
    have digest := held.bears.digest
    rw [Accounts.read_eq_of_getElem? found] at digest
    rw [Coverage.pointOf, found]
    exact digest

/-- A machine with an account that calls itself and destroys itself when it does, and then reads a
slot in the outer frame. -/
def selfDestroyer : Machine :=
  ofCodes ⟨#[0x33, 0x30, 0x14, 0x60, 0x11, 0x57, 0x5f, 0x5f, 0x5f, 0x5f, 0x5f, 0x30, 0x5a, 0xf1,
    0x5f, 0x54, 0x00, 0x5b, 0x33, 0xff]⟩ ByteArray.empty

/-- The machine in front of the first instruction of a call of that account. -/
def calledSelfDestroyer : Machine := Transaction.ofFirst.opening 100000 selfDestroyer

/-- A machine with an account that calls a second one and destroys itself when that calls back;
the second account then fails. -/
def undoneDestroyer : Machine :=
  ofCodes
    ⟨#[0x33, 0x60, 2, 0x14, 0x60, 0x11, 0x57, 0x5f, 0x5f, 0x5f, 0x5f, 0x5f, 0x60, 2, 0x5a, 0xf1,
      0x00, 0x5b, 0x33, 0xff]⟩
    ⟨#[0x5f, 0x5f, 0x5f, 0x5f, 0x5f, 0x60, 1, 0x5a, 0xf1, 0xfe]⟩

/-- The machine in front of the first instruction of a call of that account. -/
def calledUndoneDestroyer : Machine := Transaction.ofFirst.opening 100000 undoneDestroyer

theorem undoneDestroyer_failsNested : (step^[29] calledUndoneDestroyer).FailsNested := by
  have ends : (step^[29] calledUndoneDestroyer).Ends (.failure (.undefined 0xfe)) _ :=
    .fault (eq_error_of_faultOf? (by decide +kernel))
  obtain ⟨s, rest, callers⟩ : ∃ s rest, (step^[29] calledUndoneDestroyer).suspended = s :: rest :=
    List.exists_cons_of_length_pos (by decide +kernel)
  have running : (step^[29] calledUndoneDestroyer).result = none :=
    Option.isNone_iff_eq_none.1 (by decide +kernel)
  exact ⟨running, _, _, s, rest, ends, callers, trivial⟩

/-- Until the inner frame destroys the account, its points are recorded under its code, and after
that those of the outer frame as of unknown code.  Where the destruction is taken back, the points
of the outer frame are recorded under its code again. -/
theorem selfDestroyer_recorded_under_running_code :
    (∀ c : Coverage, c.Joins [(Keccak.digest (step^[20] calledSelfDestroyer).frame.code, 19)]
        (Coverage.record (step^[20] calledSelfDestroyer) c)) ∧
      (∀ c : Coverage, c.Joins [(Coverage.unknownCode, 15)]
        (Coverage.record (step^[22] calledSelfDestroyer) c)) ∧
      ∀ c : Coverage, c.Joins [(Keccak.digest (step^[30] calledUndoneDestroyer).frame.code, 16)]
        (Coverage.record (step^[30] calledUndoneDestroyer) c) := by
  have prepared : Transaction.ofFirst.prepare 100000 selfDestroyer = .ok calledSelfDestroyer :=
    Transaction.prepare_ofFirst _ _
  refine ⟨?_, ?_, ?_⟩
  · have spared : ∀ k < 20,
        (step^[k] calledSelfDestroyer).active.operation? ≠ some .selfDestruct := by
      decide +kernel
    have place : (step^[20] calledSelfDestroyer).frame.pc = 19 := by decide +kernel
    obtain ⟨key, files, -, present⟩ := recorded_under_running_code (named_ofCodes _ _) prepared 20
    rw [place] at files
    rcases present (by decide +kernel) with rfl | ⟨k, hk, ⟨_, destroys, _⟩, -⟩
    · exact files
    · exact absurd destroys (spared k hk)
  · have place : (step^[22] calledSelfDestroyer).frame.pc = 15 := by decide +kernel
    obtain ⟨key, files, absent, -⟩ := recorded_under_running_code (named_ofCodes _ _) prepared 22
    rw [place] at files
    obtain rfl := absent (by decide +kernel)
    exact files
  · have once : ∀ k < 30,
        (step^[k] calledUndoneDestroyer).active.operation? = some .selfDestruct → k = 28 := by
      decide +kernel
    have deep : ∀ i < 30, 28 ≤ i →
        ¬ (step^[i] calledUndoneDestroyer).depth < (step^[29] calledUndoneDestroyer).depth := by
      decide +kernel
    have place : (step^[30] calledUndoneDestroyer).frame.pc = 16 := by decide +kernel
    have undone : Transaction.ofFirst.prepare 100000 undoneDestroyer = .ok calledUndoneDestroyer :=
      Transaction.prepare_ofFirst _ _
    obtain ⟨key, files, -, present⟩ := recorded_under_running_code (named_ofCodes _ _) undone 30
    rw [place] at files
    rcases present (by decide +kernel) with rfl | ⟨k, hk, ⟨_, destroys, _⟩, stands⟩
    · exact files
    · obtain rfl := once k hk destroys
      obtain ⟨i, hi, hij, further⟩ := stands 29 (by decide) (by decide) undoneDestroyer_failsNested
      exact absurd further (deep i (Nat.lt_succ_of_le hij) hi)

/-- Once the outer frame has read the slot, its points are recorded under the digest of no code,
although it goes on running code. -/
theorem selfDestroyer_recorded_under_no_code :
    selfDestroyer.accounts.Named ∧
      Transaction.ofFirst.prepare 100000 selfDestroyer = .ok calledSelfDestroyer ∧
      (step^[23] calledSelfDestroyer).frame.code.isEmpty = false ∧
      Coverage.codeHashOf (step^[23] calledSelfDestroyer) = Keccak.digest ByteArray.empty ∧
      Keccak.digest ByteArray.empty ≠ Keccak.digest (step^[23] calledSelfDestroyer).frame.code ∧
      Keccak.digest ByteArray.empty ≠ Coverage.unknownCode :=
  ⟨named_ofCodes _ _, Transaction.prepare_ofFirst _ _, by decide +kernel, by decide +kernel,
    by decide +kernel, by decide +kernel⟩

end Machine

end EvmHarness
