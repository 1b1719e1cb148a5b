import EvmHarness.Operation.Create
import EvmHarness.Proofs.CallRun
set_option autoImplicit false

/-!
# What a creation does

A creation that passes its checks counts in the nonce of the creator before anything else, and
this count is the only thing that a failure leaves behind: the records that come back are those
with the count and without the new account.
-/

namespace EvmHarness

open Active (Runs RunsUnlessStatic Pays)

/-! ## Opening a creation -/

theorem CreateRequest.keeps_pop (salted : Bool) :
    Keeps Frame.Runs (CreateRequest.pop salted) := by
  refine FrameM.keeps_pop.bind fun _ => FrameM.keeps_pop.bind fun _ => ?_
  refine FrameM.keeps_pop.bind fun _ => .ite ?_ ((Keeps.pure _).bind fun _ => .pure _)
  have salts : Keeps Frame.Runs (some <$> FrameM.pop : FrameM (Option Word)) := by
    rw [map_eq_pure_bind]
    exact FrameM.keeps_pop.bind fun _ => .pure _
  exact salts.bind fun _ => .pure _

/-- The inputs that a creation takes off the stack, the value being the first of them. -/
theorem CreateRequest.pop_eq_ok {salted : Bool} {f g : Frame} {request : CreateRequest}
    (h : CreateRequest.pop salted f = .ok request g) :
    g = { f with stack := ⟨f.stack.words.drop (Operation.create salted).info.inputs⟩ } ∧
      f.stack.words.head? = some request.value := by
  unfold CreateRequest.pop at h
  obtain ⟨_, f₁, h₁, h⟩ := bind_eq_ok.1 h
  obtain ⟨_, f₂, h₂, h⟩ := bind_eq_ok.1 h
  obtain ⟨_, f₃, h₃, h⟩ := bind_eq_ok.1 h
  obtain ⟨_, e₁, rfl⟩ := FrameM.pop_eq_ok h₁
  obtain ⟨_, e₂, rfl⟩ := FrameM.pop_eq_ok h₂
  obtain ⟨_, e₃, rfl⟩ := FrameM.pop_eq_ok h₃
  cases salted with
  | true =>
      rw [if_pos rfl, map_eq_pure_bind] at h
      obtain ⟨_, f₄, h₄, h⟩ := bind_eq_ok.1 h
      obtain ⟨_, f₅, h₅, h₄⟩ := bind_eq_ok.1 h₄
      obtain ⟨rfl, rfl⟩ := EStateM.Result.ok.inj h₄
      obtain ⟨_, e₅, rfl⟩ := FrameM.pop_eq_ok h₅
      obtain ⟨rfl, rfl⟩ := EStateM.Result.ok.inj h
      simp_all [Operation.info]
  | false =>
      rw [if_neg (by decide)] at h
      obtain ⟨_, f₄, h₄, h⟩ := bind_eq_ok.1 h
      obtain ⟨rfl, rfl⟩ := EStateM.Result.ok.inj h₄
      obtain ⟨rfl, rfl⟩ := EStateM.Result.ok.inj h
      simp_all [Operation.info]

namespace Action

variable {salted : Bool} {env : Environment} {a b c : Active}

/-- What holds once a creation is opened, between the state before it and the state then. -/
structure OpensCreation (salted : Bool) (request : CreateRequest) (code : ByteArray) (a b : Active) :
    Prop extends a.Runs b where
  changeable : a.frame.isStatic = false
  stack : b.frame.stack.words =
    a.frame.stack.words.drop (Operation.create salted).info.inputs
  accounts : b.world.accounts = a.world.accounts
  logs : b.world.logs = a.world.logs
  value : a.frame.stack.words.head? = some request.value
  /-- initial code is a range of memory -/
  size : code.size ≤ Memory.addressLimit

/-- What an opened creation leaves for the rest of it. -/
theorem openCreate_eq_ok {opened : CreateRequest × ByteArray}
    (h : openCreate salted env a = .ok opened b) :
    OpensCreation salted opened.1 opened.2 a b := by
  unfold openCreate at h
  obtain ⟨_, a₀, h₀, h⟩ := bind_eq_ok.1 h
  obtain ⟨request, a₁, h₁, h⟩ := bind_eq_ok.1 h
  obtain ⟨range, a₂, h₂, h⟩ := bind_eq_ok.1 h
  obtain ⟨_, a₃, h₃, h⟩ := bind_eq_ok.1 h
  rw [get_bind] at h
  obtain ⟨_, a₄, h₄, h⟩ := bind_eq_ok.1 h
  obtain ⟨changeable, ha₀⟩ := demandChangeable_eq_ok.1 h₀
  obtain ⟨hf, hw⟩ := onFrame_eq_ok.1 h₁
  obtain ⟨hpop, hvalue⟩ := CreateRequest.pop_eq_ok hf
  obtain ⟨rfl, rfl⟩ := pure_eq_ok.1 h
  rw [ha₀] at hw hpop hvalue
  have popped : a.Runs a₁ := by
    rw [ha₀] at h₁
    exact (keeps_runs_onFrame (CreateRequest.keeps_pop salted)).of_eq_ok h₁
  have pays : a₁.Pays a₄ := ((pays_region _ _).of_eq_ok h₂).trans
    (((pays_charge _).of_eq_ok h₃).trans (pays_clearReturnData.of_eq_ok h₄))
  refine ⟨popped.trans pays.toRuns, changeable, ?_, ?_, ?_, hvalue, ?_⟩
  · rw [pays.stack, hpop]
  · rw [pays.accounts, hw]
  · rw [pays.logs, hw]
  · obtain ⟨_, hend, _⟩ := region_eq_ok h₂
    refine Nat.le_trans (Nat.le_of_eq (Bytes.size_slice _ _ _)) ?_
    exact Nat.le_trans (Nat.le_add_left _ _) hend

/-- Opening a creation leaves the frame a later state of itself. -/
theorem keeps_openCreate (salted : Bool) : Keeps Runs (openCreate salted) := by
  refine keeps_demandChangeable_bind (Keeps.unlessStatic ?_)
  refine (keeps_runs_onFrame (CreateRequest.keeps_pop salted)).bind fun request => ?_
  refine (pays_region _ _).runs.bind fun range => (pays_charge _).runs.bind fun _ => ?_
  exact Keeps.get.bind fun _ => pays_clearReturnData.runs.bind fun _ => .pure _

/-! ## Claiming the address -/

/-- The state in which a creation finds out whether the address is taken: the creation is counted,
the address touched and the gas of the callee set aside. -/
def claimed (address : Address) (b : Active) : Active where
  frame := { b.frame with gas := b.frame.gas - Gas.forwardable b.frame.gas }
  world := (b.world.mapAccounts (·.countCreation b.frame.account)).touch address

/-- The account records with the new one, before the value is moved to it. -/
def begun (address : Address) (code : ByteArray) (b : Active) : Accounts :=
  b.world.accounts.update address (·.underConstruction code)

theorem startConstruction_apply (address : Address) (value : Word) (code : ByteArray) (gas : Nat)
    (env : Environment) (b : Active) :
    startConstruction address value code gas env b =
      match (begun address code b).transfer? b.frame.account address value with
      | none => answer gas 0 env b
      | some moved =>
        .ok (.enter (constructionFrame b.frame.account address value code gas) (.create address)
          b.world.accounts) { b with world := b.world.mapAccounts fun _ => moved } := by
  unfold startConstruction
  rw [get_bind]
  show (match (begun address code b).transfer? b.frame.account address value with
    | none => answer gas 0
    | some moved => do
      modifyWorld (·.mapAccounts fun _ => moved)
      return .enter (constructionFrame b.frame.account address value code gas) (.create address)
        b.world.accounts : Action Next) env b = _
  cases (begun address code b).transfer? b.frame.account address value <;> rfl

theorem claimAddress_apply (address : Address) (value : Word) (code : ByteArray)
    (env : Environment) (b : Active) :
    claimAddress address value code env b =
      if (claimed address b).world.accounts[address]?.any Account.isTaken then
        (do push 0; return .proceed : Action Next) env (claimed address b)
      else
        startConstruction address value code (Gas.forwardable b.frame.gas) env
          (claimed address b) := by
  have counted : modifyWorld (·.mapAccounts (·.countCreation b.frame.account)) env b =
      .ok () { b with world := b.world.mapAccounts (·.countCreation b.frame.account) } := rfl
  have touched : touch address env
      { b with world := b.world.mapAccounts (·.countCreation b.frame.account) } =
        .ok (!b.world.accessed.contains address)
          { b with world := (claimed address b).world } := rfl
  have charged : charge (Gas.forwardable b.frame.gas) env
      { b with world := (claimed address b).world } = .ok () (claimed address b) := by
    have paid : FrameM.charge (Gas.forwardable b.frame.gas) b.frame =
        .ok () (claimed address b).frame :=
      FrameM.charge_eq_ok.2 ⟨Gas.forwardable_le b.frame.gas, rfl⟩
    exact onFrame_of_eq_ok (a := ⟨b.frame, (claimed address b).world⟩) paid env
  unfold claimAddress
  rw [get_bind, bind_of_eq_ok counted, bind_of_eq_ok touched, get_bind]
  dsimp only
  rw [bind_of_eq_ok charged, get_bind]
  split <;> rfl

theorem claimed_runs (address : Address) (changeable : b.frame.isStatic = false)
    (countable : (b.world.accounts.read b.frame.account).nonce ≠ Saturating.limit) :
    b.Runs (claimed address b) :=
  ⟨(Frame.Pays.spend _ (Nat.sub_le _ _)).toRuns,
    .tail (.single (.count changeable countable)) (.touch address)⟩

/-- The gas set aside is what the claim has taken. -/
theorem claimed_gas (address : Address) (b : Active) :
    (claimed address b).frame.gas + Gas.forwardable b.frame.gas = b.frame.gas :=
  Nat.sub_add_cancel (Gas.forwardable_le _)

/-- The record of the new account and the value for it come one after the other. -/
theorem construct_reaches {address : Address} {value : Word} {code : ByteArray} {moved : Accounts}
    (changeable : b.frame.isStatic = false)
    (free : ¬ b.world.accounts[address]?.any Account.isTaken = true)
    (covered : (begun address code b).transfer? b.frame.account address value = some moved) :
    World.Reaches b.frame.account b.frame.isStatic (.create address = Purpose.create ·) b.world
      (b.world.mapAccounts fun _ => moved) := by
  refine .tail (.single (.construct address code rfl changeable free)) ?_
  refine .transfer address value moved (fun hs => ?_) covered
  simp [changeable] at hs

theorem claimAddress_leads {address : Address} {value : Word} {code : ByteArray}
    (changeable : b.frame.isStatic = false)
    (countable : (b.world.accounts.read b.frame.account).nonce ≠ Saturating.limit) :
    b.Leads (claimAddress address value code env b) := by
  have claims := claimed_runs address changeable countable
  rw [claimAddress_apply]
  split
  · have lost : Keeps Runs (do push 0; return .proceed : Action Next) :=
      (keeps_push 0).bind fun _ => .pure _
    exact (claims.trans (lost env _)).leads
  · rename_i free
    rw [startConstruction_apply]
    cases hm : (begun address code (claimed address b)).transfer? (claimed address b).frame.account
        address value with
    | none => exact (answer_runs claims (Nat.le_of_eq (claimed_gas address b))).leads
    | some moved =>
        have reaches := construct_reaches (b := claimed address b) changeable free hm
        exact ⟨claims.frame, (claims.world.mono fun _ => False.elim).trans reaches⟩

/-! ## The whole of a creation -/

theorem startCreate_apply (request : CreateRequest) (code : ByteArray) (env : Environment)
    (b : Active) :
    startCreate request code env b =
      if b.world.accounts.CanCreate b.frame.account request.value env.depth then
        claimAddress (request.address b.frame.account
          (b.world.accounts.read b.frame.account).nonce code) request.value code env b
      else (do push 0; return .proceed : Action Next) env b := by
  unfold startCreate
  rw [get_bind, read_bind]
  split <;> rfl

/-- A creation leaves its frame a later state of itself, and puts no account under construction but
the one whose initial code it starts. -/
theorem create_leads (salted : Bool) (env : Environment) (a : Active) :
    a.Leads (create salted env a) := by
  show a.Leads ((openCreate salted env >>= fun opened => startCreate opened.1 opened.2 env) a)
  cases h : openCreate salted env a with
  | error fault b =>
      have failed : (openCreate salted env >>= fun opened => startCreate opened.1 opened.2 env) a =
          .error fault b := bind_of_eq_error h _
      rw [failed]
      exact Runs.leads ((keeps_openCreate salted env).of_eq_error h)
  | ok opened b =>
      have opens := openCreate_eq_ok h
      have changeable : b.frame.isStatic = false := by rw [opens.frame.isStatic, opens.changeable]
      have begins : (openCreate salted env >>= fun opened => startCreate opened.1 opened.2 env) a =
          startCreate opened.1 opened.2 env b := bind_of_eq_ok h _
      rw [begins, startCreate_apply]
      split
      · rename_i can
        exact opens.toRuns.trans_leads (claimAddress_leads changeable can.2.2)
      · have refused : Keeps Runs (do push 0; return .proceed : Action Next) :=
          (keeps_push 0).bind fun _ => .pure _
        exact Runs.leads (opens.toRuns.trans (refused env b))

/-- A frame that goes on with a zero on its stack. -/
theorem push_zero_eq_ok {next : Next}
    (h : (do push 0; return .proceed : Action Next) env b = .ok next c) :
    next = .proceed ∧
      c = { b with frame := { b.frame with stack := ⟨0 :: b.frame.stack.words⟩ } } := by
  obtain ⟨_, c', hpush, h⟩ := bind_eq_ok.1 h
  obtain ⟨rfl, rfl⟩ := pure_eq_ok.1 h
  rw [push_apply] at hpush
  split at hpush
  · obtain ⟨_, rfl⟩ := EStateM.Result.ok.inj hpush
    exact ⟨rfl, rfl⟩
  · exact absurd hpush nofun

/-- A creation that begins: its address is not in use, and the value has been moved to the record
that has been put under construction there. -/
structure Begins (creator address : Address) (value : Word) (code : ByteArray)
    (counted moved : Accounts) : Prop where
  free : ¬ counted[address]?.any Account.isTaken = true
  covered : (counted.update address (·.underConstruction code)).transfer? creator address value =
    some moved

/-- The ways in which a creation gives a value: refused with nothing changed, refused after it has
been counted, or the initial code entered. -/
theorem create_eq_ok {next : Next} (h : create salted env a = .ok next c) :
    ∃ request code b, OpensCreation salted request code a b ∧ c.world.logs = a.world.logs ∧
      ((¬ a.world.accounts.CanCreate a.frame.account request.value env.depth ∧
          next = .proceed ∧ c.world.accounts = a.world.accounts ∧
          c.frame.stack.words = 0 :: b.frame.stack.words) ∨
        (a.world.accounts.CanCreate a.frame.account request.value env.depth ∧
          ((next = .proceed ∧ c.frame.stack.words = 0 :: b.frame.stack.words ∧
              c.world.accounts = a.world.accounts.countCreation a.frame.account) ∨
            ∃ address, next = .enter (constructionFrame a.frame.account address request.value
                code (Gas.forwardable b.frame.gas)) (.create address)
                (a.world.accounts.countCreation a.frame.account) ∧
              c.frame = (claimed address b).frame ∧
              Begins a.frame.account address request.value code
                (a.world.accounts.countCreation a.frame.account) c.world.accounts))) := by
  obtain ⟨⟨request, code⟩, b, ho, h⟩ := bind_eq_ok.1 h
  have opens := openCreate_eq_ok ho
  refine ⟨request, code, b, opens, ?_⟩
  have h : startCreate request code env b = .ok next c := h
  rw [startCreate_apply, opens.accounts, opens.frame.account] at h
  split at h
  · rename_i can
    generalize request.address a.frame.account _ code = address at h
    have accounts : (claimed address b).world.accounts =
        a.world.accounts.countCreation a.frame.account := by
      show b.world.accounts.countCreation b.frame.account = _
      rw [opens.accounts, opens.frame.account]
    have logs : (claimed address b).world.logs = a.world.logs := opens.logs
    rw [claimAddress_apply] at h
    split at h
    · obtain ⟨rfl, rfl⟩ := push_zero_eq_ok h
      exact ⟨logs, .inr ⟨can, .inl ⟨rfl, rfl, accounts⟩⟩⟩
    · rename_i free
      rw [startConstruction_apply] at h
      cases hm : (begun address code (claimed address b)).transfer?
          (claimed address b).frame.account address request.value with
      | none =>
          rw [hm] at h
          obtain ⟨rfl, rfl⟩ := answer_eq_ok h
          exact ⟨logs, .inr ⟨can, .inl ⟨rfl, rfl, accounts⟩⟩⟩
      | some moved =>
          rw [hm] at h
          obtain ⟨rfl, rfl⟩ := EStateM.Result.ok.inj h
          have owner : (claimed address b).frame.account = a.frame.account := opens.frame.account
          rw [begun, accounts, owner] at hm
          rw [accounts] at free
          refine ⟨logs, .inr ⟨can, .inr ⟨address, ?_, rfl, free, hm⟩⟩⟩
          rw [accounts, owner]
  · rename_i cannot
    obtain ⟨rfl, rfl⟩ := push_zero_eq_ok h
    exact ⟨opens.logs, .inl ⟨cannot, rfl, opens.accounts, rfl⟩⟩

end Action

end EvmHarness
