import EvmHarness.Proofs.TouchedAddresses
import EvmHarness.Proofs.Verdict
set_option autoImplicit false

/-!
# What an execution leaves

After the run of a transaction only a successful creation changes the machine: the code that the
initial code has returned takes its place in the record of the new account, and in the frame.  The
record is found by the account of the frame and loaded by the destination; these are the same, since
the frame that has ended last is the outermost one.
-/

namespace EvmHarness

/-- The machine in which an account that the frame executes has other code. -/
def Machine.recode (m : Machine) (a : Address) (record : Account) (code : ByteArray) : Machine :=
  { m with
    active :=
      { frame := { m.frame with
          account := a
          codeAccount := a
          code := code
          jumpDests := Code.jumpDests code }
        world := { m.world with
          accounts := m.accounts.insert a
            { record with code := code, codeHash := Keccak.digest code } } } }

namespace HarnessM

variable {tx : Transaction} {gasLimit : UInt64} {before m : Machine}

/-- An account that has a record and has been touched is loaded with nothing else changed. -/
theorem load_apply {a : Address} {record : Account} (found : m.accounts[a]? = some record)
    (touched : a ∈ m.world.accessed) :
    load a m = .ok () (m.mapFrame fun f =>
      { f.setCode record.code with account := a, codeAccount := a }) := by
  unfold load Machine.load
  rw [ofExcept_apply, found]
  obtain ⟨setting, ⟨frame, world⟩, suspended, result⟩ := m
  have same : world.touch a = world := World.touch_of_mem touched
  dsimp only [Machine.mapFrame, Machine.mapWorld]
  rw [same]

/-- After a successful creation the code is put in the record and the frame of the new account. -/
theorem conclude_create {record : Account} (isCreate : tx.isCreate = true) (code : ByteArray)
    (own : m.frame.account = tx.destination) (touched : tx.destination ∈ m.world.accessed)
    (found : m.accounts[tx.destination]? = some record) :
    conclude refuse tx (.success code) m =
      .ok (.success code) (m.recode tx.destination record code) := by
  unfold Transaction.isCreate at isCreate
  unfold conclude
  cases hx : tx.action with
  | call data => simp [hx] at isCreate
  | create initCode =>
      have owns : replaceOwnCode code m = replaceCode tx.destination code m := by rw [← own]; rfl
      rw [replaceCode_apply, found] at owns
      have put : (m.mapWorld (·.mapAccounts (·.insert tx.destination
          (record.withCode code)))).accounts[tx.destination]? = some (record.withCode code) :=
        Std.ExtTreeMap.getElem?_insert_self
      have loads := load_apply put touched
      show EStateM.bind (replaceOwnCode code) _ m = _
      rw [EStateM.bind, owns]
      show EStateM.bind (load tx.destination) _ _ = _
      rw [EStateM.bind, loads]
      rfl

/-- Concluding a call, or anything that has failed, changes nothing. -/
theorem stateAfter_conclude {outcome : Outcome}
    (h : tx.isCreate = false ∨ outcome.isSuccess = false) (m : Machine) :
    stateAfter (conclude refuse tx outcome m) = m := by
  cases outcome with
  | failure fault =>
      have kept : Keeps Eq (conclude refuse tx (.failure fault)) := by
        unfold conclude
        refine .ite ?_ (.pure _)
        cases refuse fault with
        | ok u => exact .pure _
        | error reported => exact (Keeps.throw _).bind fun _ => .pure _
      exact (kept m).symm
  | success output =>
      have isCall : tx.isCreate = false := h.resolve_right nofun
      unfold Transaction.isCreate at isCall
      unfold conclude
      cases hx : tx.action with
      | call data => rfl
      | create initCode => simp [hx] at isCall

/-- A creation that succeeds and whose account has a record in the end is executed to that success.
The machine is then that of the end of the run, but for the code of the account, with its digest,
and for the code of the frame, which executes this account.  Where a call is executed, or a creation
that fails, the machine is that of the end of the run. -/
theorem creation_fixed_up (h : tx.prepare gasLimit before = .ok m) :
    (∀ code record, tx.isCreate = true → m.run.1 = .success code →
      m.run.2.accounts[tx.destination]? = some record →
        execute gasLimit tx before =
          .ok (.success code) (m.run.2.recode tx.destination record code)) ∧
      (tx.isCreate = false ∨ m.run.1.isSuccess = false →
        stateAfter (execute gasLimit tx before) = m.run.2) := by
  obtain ⟨runs, _, free⟩ := Machine.run_ends h
  have touched : tx.destination ∈ m.run.2.world.accessed := by
    rw [runs]
    exact Machine.destination_accessed h _
  constructor
  · intro code record isCreate outcome found
    rw [execute_apply, h]
    dsimp only
    rw [outcome]
    exact conclude_create isCreate code free.account touched found
  · intro unchanged
    rw [execute_apply, h]
    exact stateAfter_conclude unchanged _

/-- A creation whose initial code fills a storage slot and returns one byte of code. -/
def furnishing : Transaction := .ofCreate 3 2 ⟨#[0x60, 7, 0x60, 1, 0x55, 0x60, 1, 0x5f, 0xf3]⟩

/-- The slot is still there once the code has been put in place. -/
theorem furnishing_fixed_up :
    let m := furnishing.opening 100000 Machine.initial
    furnishing.prepare 100000 Machine.initial = .ok m ∧
      ∃ record, m.run.2.accounts[(2 : Address)]? = some record ∧
        record.storage.persistent[(1 : Word)]? = some 7 ∧
        execute 100000 furnishing Machine.initial =
          .ok (.success ⟨#[0]⟩) (m.run.2.recode 2 record ⟨#[0]⟩) := by
  intro m
  have prepared : furnishing.prepare 100000 Machine.initial = .ok m :=
    Transaction.prepare_eq_ok.2 ⟨BitVec.le_def.2 (Nat.zero_le _), rfl⟩
  have outcome : m.run.1 = .success ⟨#[0]⟩ := by decide +kernel
  have slot : m.run.2.accounts[(2 : Address)]?.map
      (fun record => record.storage.persistent[(1 : Word)]?) = some (some 7) := by
    decide +kernel
  obtain ⟨record, found, filled⟩ := Option.map_eq_some_iff.1 slot
  exact ⟨prepared, record, found, filled,
    (creation_fixed_up prepared).1 ⟨#[0]⟩ record rfl outcome found⟩

end HarnessM

end EvmHarness
