import EvmHarness.Proofs.InstructionRun
set_option autoImplicit false

/-!
# Calls and creations that fail, and those that enter a callee

What a failed call or creation leaves is settled before any callee runs: the account records and
logs of the moment, with a creation that passed its checks counted.  A refusal leaves just that,
and a callee that is entered is given just that to restore.
-/

namespace EvmHarness

/-- A frame that is about to run its code from the front, with nothing on its stack or in its
memory. -/
structure Frame.Fresh (f : Frame) : Prop where
  pc : f.pc = 0
  stack : f.stack = .empty
  memory : f.memory = .empty
  jumpDests : f.jumpDests = Code.jumpDests f.code

namespace Active

/-- The account records that a call or creation leaves when it fails: those before it.  A creation
that is not too deep, whose value is there and whose creator's nonce can grow leaves that nonce one
higher. -/
def restored (a : Active) (depth : Nat) : Accounts :=
  match a.operation?, a.frame.stack.words with
  | some (.create _), value :: _ =>
    if depth < callDepthLimit ∧ value ≤ (a.world.accounts.read a.frame.account).balance ∧
        (a.world.accounts.read a.frame.account).nonce ≠ Saturating.limit then
      a.world.accounts.update a.frame.account fun record => { record with nonce := record.nonce + 1 }
    else a.world.accounts
  | _, _ => a.world.accounts

/-- What holds in addition once a static frame or a static call has entered a callee: it is static
and no creation, nothing has been moved, and it acts on an account with a record, or on that of its
caller where the call is not static itself. -/
structure EntersStatically (a : Active) (callee : Frame) (purpose : Purpose)
    (reversion : Accounts) (c : Active) : Prop where
  static : callee.isStatic = true
  call : ∃ offset size, purpose = .call offset size
  restores : reversion = a.world.accounts
  moved : c.world.accounts = a.world.accounts
  account : callee.account ∈ a.world.accounts ∨
    callee.account = a.frame.account ∧ a.operation? ≠ some (.call .static)

/-- What holds once a callee is entered, between the state before the instruction and the state
that the caller then waits in. -/
structure Enters (a : Active) (depth : Nat) (callee : Frame) (purpose : Purpose)
    (reversion : Accounts) (c : Active) : Prop extends a.Later c where
  nests : ∃ op, a.operation? = some op ∧ op.nests = true
  shallow : depth < callDepthLimit
  fresh : callee.Fresh
  /-- the callee runs the code of a record, or a range of memory -/
  code : (∃ (b : Address) (record : Account), a.world.accounts[b]? = some record ∧
      callee.code = record.code) ∨
    callee.code.size ≤ Memory.addressLimit
  /-- initial code runs for the account that it builds -/
  account : ∀ address, purpose = .create address → callee.account = address
  /-- the only account put under construction is the one that the callee builds -/
  sites : World.Reaches a.frame.account a.frame.isStatic (purpose = .create ·) a.world c.world
  /-- the answer of the callee fits on the stack -/
  room : c.frame.stack.size < Stack.limit
  /-- the place for the output is there -/
  output : ∀ offset size, purpose = .call offset size → c.frame.memory.covers offset size = true
  gas : c.frame.gas + callee.gas + 2 ≤ a.frame.gas
  logs : c.world.logs = a.world.logs
  restores : reversion = a.restored depth
  static : a.frame.isStatic = true ∨ a.operation? = some (.call .static) →
    a.EntersStatically callee purpose reversion c

/-- Where the code of a callee is known from.  A call runs the code of a record.  A creation runs
initial code, whose digest has been put into a record at an address that was not in use. -/
inductive Knows (a : Active) (callee : Frame) (reversion : Accounts) (c : Active) :
    Purpose → Prop where
  | record {offset size : Nat} {record : Account}
      (found : a.world.accounts[callee.codeAccount]? = some record)
      (code : callee.code = record.code) (coded : callee.code.isEmpty = false) :
      Knows a callee reversion c (.call offset size)
  | construction {value : Word}
      (begins : Action.Begins a.frame.account callee.codeAccount value callee.code reversion
        c.world.accounts) :
      Knows a callee reversion c (.create callee.codeAccount)

theorem restored_of_call {a : Active} {scheme : CallScheme} (h : a.operation? = some (.call scheme))
    (depth : Nat) : a.restored depth = a.world.accounts := by
  unfold restored
  rw [h]

theorem restored_of_create {a : Active} {salted : Bool} {value : Word} {depth : Nat}
    (h : a.operation? = some (.create salted)) (hv : a.frame.stack.words.head? = some value) :
    a.restored depth =
      if a.world.accounts.CanCreate a.frame.account value depth then
        a.world.accounts.countCreation a.frame.account
      else a.world.accounts := by
  obtain ⟨rest, hwords⟩ := List.head?_eq_some_iff.1 hv
  unfold restored
  rw [h, hwords]
  rfl

/-- An operation that leaves one word has room for it once its inputs are gone. -/
theorem Starts.room_for_answer {op : Operation} {a c : Active} (starts : a.Starts op)
    (hout : op.info.outputs = 1)
    (hstack : c.frame.stack.words = a.frame.stack.words.drop op.info.inputs) :
    c.frame.stack.size < Stack.limit := by
  have hroom := starts.room
  have hsize : c.frame.stack.size = a.frame.stack.size - op.info.inputs := by
    show c.frame.stack.words.length = _
    rw [hstack, List.length_drop]
    rfl
  omega

end Active

namespace Action

variable {env : Environment} {a b c : Active} {callee : Frame} {purpose : Purpose}
  {reversion : Accounts}

/-- The callee of a call, in what it takes from its caller. -/
theorem call_enters {scheme : CallScheme} (starts : a.Starts (.call scheme))
    (h : call scheme env (a.started (.call scheme)) = .ok (.enter callee purpose reversion) c) :
    a.Enters env.depth callee purpose reversion c := by
  obtain ⟨opened, b, opens, ⟨_, hans⟩ | ⟨moved, hm, ⟨_, hans⟩ | ⟨hcode, hnext, hc⟩⟩⟩ :=
    call_eq_ok h
  · exact absurd (answer_eq_ok hans).1 nofun
  · exact absurd (answer_eq_ok hans).1 nofun
  obtain ⟨rfl, rfl, rfl⟩ := Next.enter.inj hnext
  have runs : (a.started (.call scheme)).Runs c := (keeps_call scheme).of_eq_ok h
  have self : b.frame.account = a.frame.account := opens.frame.account
  obtain ⟨record, hrecord, hcode⟩ := opens.exists_record hcode
  have hrecord : a.world.accounts[opened.request.target]? = some record := hrecord
  refine ⟨(a.started_later _).trans runs.later, ⟨_, starts.operation, rfl⟩,
    callTransfer_shallow hm, ⟨rfl, rfl, rfl, rfl⟩, .inl ⟨_, _, hrecord, hcode⟩, nofun,
    runs.world.mono fun _ => False.elim, ?_, ?_, ?_, ?_, ?_, ?_⟩
  · refine starts.room_for_answer rfl ?_
    rw [hc]
    exact opens.stack
  · rintro offset size hpurpose
    obtain ⟨rfl, rfl⟩ := Purpose.call.inj hpurpose
    rw [hc]
    exact opens.output
  · have hpaid := opens.paid
    have hgas := opened.gas_le
    have hstart := starts.gas
    have hprice : (Operation.call scheme).info.price = 100 := rfl
    rw [hc]
    show b.frame.gas + opened.gas + 2 ≤ _
    omega
  · rw [hc]
    exact opens.logs
  · exact (Active.restored_of_call starts.operation _).symm
  · intro hstatic
    have scheme_or : a.frame.isStatic = true ∨ scheme = .static := by
      rw [starts.operation] at hstatic
      exact hstatic.imp_right fun hs => Operation.call.inj (Option.some.inj hs)
    have target : opened.request.target ∈ a.world.accounts :=
      Std.ExtTreeMap.isSome_getElem?_iff_mem.1 (by rw [hrecord]; rfl)
    refine ⟨?_, ⟨_, _, rfl⟩, rfl, ?_, ?_⟩
    · show (b.frame.isStatic || _) = true
      rw [opens.frame.isStatic]
      show (a.frame.isStatic || _) = true
      obtain hs | rfl := scheme_or
      · rw [hs, Bool.true_or]
      · exact Bool.or_true _
    · rw [hc]
      have hmoved := Accounts.transfer?_harmless (callTransfer_covered opens hm)
        (callTransfer_harmless opens scheme_or)
      exact hmoved.trans opens.accounts
    · show scheme.actsOn b.frame opened.request.target ∈ _ ∨
        scheme.actsOn b.frame opened.request.target = _ ∧ _
      rw [starts.operation]
      cases scheme with
      | call => exact .inl target
      | static => exact .inl target
      | callCode => exact .inr ⟨self, by decide⟩
      | delegate => exact .inr ⟨self, by decide⟩

/-- The callee of a creation, in what it takes from its caller. -/
theorem create_enters {salted : Bool} (starts : a.Starts (.create salted))
    (h : create salted env (a.started (.create salted)) =
      .ok (.enter callee purpose reversion) c) :
    a.Enters env.depth callee purpose reversion c := by
  have leads := create_leads salted env (a.started (.create salted))
  rw [h] at leads
  obtain ⟨request, code, b, opens, hlogs,
    ⟨_, hnext, _⟩ | ⟨can, ⟨hnext, _⟩ | ⟨address, hnext, hc, _⟩⟩⟩ := create_eq_ok h
  · exact absurd hnext nofun
  · exact absurd hnext nofun
  obtain ⟨rfl, rfl, rfl⟩ := Next.enter.inj hnext
  refine ⟨(a.started_later _).trans leads.later, ⟨_, starts.operation, rfl⟩, can.1,
    ⟨rfl, rfl, rfl, rfl⟩, .inr opens.size, ?_, leads.world, ?_, nofun, ?_, hlogs, ?_, ?_⟩
  · rintro _ hpurpose
    exact Purpose.create.inj hpurpose
  · refine starts.room_for_answer rfl ?_
    rw [hc]
    exact opens.stack
  · have hspent := opens.frame.gas
    have hstart := starts.gas
    have hprice : (Operation.create salted).info.price = 32000 := rfl
    have hclaimed : c.frame.gas + Gas.forwardable b.frame.gas = b.frame.gas := by
      rw [hc, claimed_gas]
    show c.frame.gas + Gas.forwardable b.frame.gas + 2 ≤ _
    omega
  · exact ((Active.restored_of_create starts.operation opens.value).trans (if_pos can)).symm
  · rintro (hs | hs)
    · exact absurd (opens.changeable.symm.trans hs) (by decide)
    · rw [starts.operation] at hs
      exact absurd hs nofun

/-- An instruction enters a callee only by a call or a creation, with room for the answer, with
the gas of the callee taken from its own, and with what a failure restores at hand. -/
theorem instruction_enters
    (h : instruction env a = .ok (.enter callee purpose reversion) c) :
    a.Enters env.depth callee purpose reversion c := by
  obtain ⟨op, starts, hop⟩ := instruction_eq_ok h
  have nests : op.nests = true := gives_perform op hop
  cases op with
  | call scheme => exact call_enters starts hop
  | create salted => exact create_enters starts hop
  | _ => exact absurd nests Bool.false_ne_true

/-- The code of a callee is known: it is that of a record, or it is under construction. -/
theorem instruction_knows (h : instruction env a = .ok (.enter callee purpose reversion) c) :
    a.Knows callee reversion c purpose := by
  obtain ⟨op, starts, hop⟩ := instruction_eq_ok h
  have nests : op.nests = true := gives_perform op hop
  cases op with
  | call scheme =>
      obtain ⟨opened, b, opens, ⟨_, hans⟩ | ⟨moved, hm, ⟨_, hans⟩ | ⟨coded, hnext, _⟩⟩⟩ :=
        call_eq_ok hop
      · exact absurd (answer_eq_ok hans).1 nofun
      · exact absurd (answer_eq_ok hans).1 nofun
      · obtain ⟨rfl, rfl, rfl⟩ := Next.enter.inj hnext
        obtain ⟨record, found, code⟩ := opens.exists_record coded
        exact .record found code coded
  | create salted =>
      obtain ⟨request, code, b, opens, _, ⟨_, hnext, _⟩ | ⟨_, ⟨hnext, _⟩ |
        ⟨address, hnext, _, begins⟩⟩⟩ := create_eq_ok hop
      · exact absurd hnext nofun
      · exact absurd hnext nofun
      · obtain ⟨rfl, rfl, rfl⟩ := Next.enter.inj hnext
        exact .construction begins
  | _ => exact absurd nests Bool.false_ne_true

/-- A call or creation that answers zero at once leaves what a failed one leaves. -/
theorem instruction_refuses {op : Operation} (h : instruction env a = .ok .proceed c)
    (hop : a.operation? = some op) (nests : op.nests = true)
    (zero : c.frame.stack.words.head? = some 0) :
    c.world.accounts = a.restored env.depth ∧ c.world.logs = a.world.logs := by
  obtain ⟨op', starts, hperform⟩ := instruction_eq_ok h
  obtain rfl : op = op' := Option.some.inj (hop.symm.trans starts.operation)
  cases op with
  | call scheme =>
      obtain ⟨opened, b, opens, ⟨_, hans⟩ | ⟨moved, _, ⟨_, hans⟩ | ⟨_, hnext, _⟩⟩⟩ :=
        call_eq_ok hperform
      · obtain ⟨_, rfl⟩ := answer_eq_ok hans
        rw [Active.restored_of_call hop]
        exact ⟨opens.accounts, opens.logs⟩
      · -- an account without code answers one
        obtain ⟨_, rfl⟩ := answer_eq_ok hans
        exact absurd (Option.some.inj zero) (by decide)
      · exact absurd hnext nofun
  | create salted =>
      obtain ⟨request, _, b, opens, hlogs, ⟨cannot, _, haccounts, _⟩ |
        ⟨can, ⟨_, _, haccounts⟩ | ⟨_, hnext, _⟩⟩⟩ := create_eq_ok hperform
      · rw [Active.restored_of_create hop opens.value]
        exact ⟨haccounts.trans (if_neg cannot).symm, hlogs⟩
      · rw [Active.restored_of_create hop opens.value]
        exact ⟨haccounts.trans (if_pos can).symm, hlogs⟩
      · exact absurd hnext nofun
  | _ => exact absurd nests Bool.false_ne_true

end Action

end EvmHarness
