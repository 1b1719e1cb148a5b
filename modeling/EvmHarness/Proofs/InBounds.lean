import EvmHarness.Proofs.GasBudget
import EvmHarness.Proofs.RecordRun
import EvmHarness.Proofs.WellFormed
set_option autoImplicit false

/-!
# Sums and ranges stay in bounds

Counters have 64 bits, and a range of bytes has to lie within the bytes it is taken from.  Some sums
and products of counters are made, and some ranges of memory written, without a test right before.
Listed here is what each of them counts on, at the point of the operation where it is made; what is
tested on the spot is left out.  In well-formed machines all of it holds, provided that no code is
so long that an offset in it is no counter.
-/

namespace EvmHarness

/-! ## What is counted on -/

/-- The action is a chain, and what its opening gives has the property that the rest of it counts
on. -/
structure CountsOn {ε σ α β : Type} (act : EStateM ε σ α) (opening : EStateM ε σ β)
    (rest : β → EStateM ε σ α) (P : β → σ → Prop) (s : σ) : Prop where
  chain : act = opening >>= rest
  after : After opening P s

/-- The same of an action in an environment. -/
def Action.CountsOn {α β : Type} (act : Action α) (opening : Action β) (rest : β → Action α)
    (P : β → Active → Prop) (env : Environment) (a : Active) : Prop :=
  act = opening >>= rest ∧ After (opening env) P a

/-- The range can be written: if there are bytes in it, its end is a counter, and memory grown for
it reaches that end. -/
structure Memory.Writes (m : Memory) (offset size : Nat) : Prop where
  counter : size ≠ 0 → offset + size ≤ Saturating.limit
  inside : (m.extend offset size).covers offset size = true

namespace FrameM

/-- The price of a digest is a counter. -/
def DigestInBounds (env : Environment) : Frame → Prop :=
  CountsOn (perform env .keccak)
    (do
      let offset ← pop
      let size ← pop
      region offset size)
    (fun (offset, size) => do
      charge (Gas.hashedWord * Gas.words size)
      push (Keccak.digest ((← get).memory.read offset size)))
    (fun (_, size) _ => Gas.hashedWord * Gas.words size ≤ Saturating.limit)

/-- The price of a copy into memory is a counter, and the range for it can be written. -/
def CopyInBounds (source : ByteArray) (dest offset size : Word) : Frame → Prop :=
  CountsOn (copyIn source dest offset size) (region dest size)
    (fun (dest, size) => do
      charge (Gas.copiedWord * Gas.words size)
      store dest size (Bytes.slice source offset.toNat size))
    (fun (dest, size) f =>
      Gas.copiedWord * Gas.words size ≤ Saturating.limit ∧ f.memory.Writes dest size)

/-- The range for what is written of a word can be written. -/
def StoreInBounds (act : FrameM Unit) (width : Word) (bytes : Word → ByteArray) : Frame → Prop :=
  CountsOn act
    (do
      let offset ← pop
      let value ← pop
      return (value, ← region offset width))
    (fun (value, offset, _) => store offset width.toNat (bytes value))
    (fun (_, offset, _) f => f.memory.Writes offset width.toNat)

/-- The price of a copy within memory is a counter, and both of its ranges are inside. -/
def CopyWithinInBounds : Frame → Prop :=
  CountsOn copyWithin
    (do
      let dest ← pop
      let offset ← pop
      let size ← pop
      let source ← region offset size
      return (source, ← region dest (BitVec.ofNat 256 source.2)))
    (fun (source, dest, _) => do
      charge (Gas.copiedWord * Gas.words source.2)
      modify (·.mapMemory (·.copyWithin source.1 dest source.2)))
    (fun (source, dest, _) f =>
      Gas.copiedWord * Gas.words source.2 ≤ Saturating.limit ∧
        f.memory.covers source.1 source.2 = true ∧ f.memory.covers dest source.2 = true)

end FrameM

/-- What an operation on the frame counts on. -/
def FrameOp.InBounds (env : Environment) (f : Frame) : FrameOp → Prop
  | .exp => ∀ exponent : Word, Gas.exponentByte * exponent.byteLength ≤ Saturating.limit
  | .keccak => FrameM.DigestInBounds env f
  | .copy _ => ∀ source dest offset size g, FrameM.CopyInBounds source dest offset size g
  | .storeWord => FrameM.StoreInBounds (FrameM.perform env .storeWord) 32 (Bytes.ofWord ·.toNat) f
  | .storeByte =>
    FrameM.StoreInBounds (FrameM.perform env .storeByte) 1 (Bytes.ofNumber 1 ·.toNat) f
  | .copyMemory => FrameM.CopyWithinInBounds f
  | .push size => size ≤ 32 ∧ f.pc + size ≤ Saturating.limit
  | _ => True

namespace Action

/-- The price of the bytes of a log is a counter. -/
def LogInBounds (topics : Nat) : Environment → Active → Prop :=
  CountsOn (writeLog topics)
    (do
      demandChangeable
      let offset ← pop
      let size ← pop
      let words ← onFrame (FrameM.popMany topics)
      return (words, ← region offset size))
    (fun (words, offset, size) => do
      charge (Gas.loggedByte * size)
      let f := (← get).frame
      modifyWorld (·.addLog ⟨f.account, words, f.memory.read offset size⟩)
      return .proceed)
    (fun (_, _, size) _ => Gas.loggedByte * size ≤ Saturating.limit)

/-- The price of hashing some initial code is a counter. -/
def OpenCreateInBounds (salted : Bool) : Environment → Active → Prop :=
  CountsOn (openCreate salted)
    (do
      demandChangeable
      let request ← onFrame (CreateRequest.pop salted)
      return (request, ← region request.offset request.size))
    (fun (request, offset, size) => do
      charge (if salted then Gas.hashedWord * Gas.words size else 0)
      let code := (← get).frame.memory.read offset size
      clearReturnData
      return (request, code))
    (fun (_, _, size) _ => Gas.hashedWord * Gas.words size ≤ Saturating.limit)

/-- The count of a creation that passes its checks is a counter, and so is the gas that the creator
has again where the value cannot be sent. -/
def CreateInBounds (salted : Bool) (env : Environment) : Active → Prop :=
  CountsOn (create salted) (openCreate salted) (fun (request, code) => startCreate request code)
    (fun (request, _) a =>
      a.world.accounts.CanCreate a.frame.account request.value env.depth →
        (a.world.accounts.read a.frame.account).nonce + 1 ≤ Saturating.limit ∧
          a.frame.gas - Gas.forwardable a.frame.gas + Gas.forwardable a.frame.gas ≤
            Saturating.limit) env

/-- The price of touching a target and sending value is a counter. -/
def PayForCallInBounds (request : CallRequest) : Environment → Active → Prop :=
  CountsOn (payForCall request) (accessCost request.target)
    (fun access => do
      charge (access + if request.value = 0 then 0 else Gas.valueTransfer)
      match ← recordAt request.target with
      | some record => return record.code
      | none => return ByteArray.empty)
    (fun access _ => access + Gas.valueTransfer ≤ Saturating.limit)

/-- The gas that a caller has again where its call cannot start is a counter. -/
def CallInBounds (scheme : CallScheme) : Environment → Active → Prop :=
  CountsOn (call scheme) (openCall scheme) (startCall scheme)
    (fun opened a => a.frame.gas + opened.forwarded ≤ Saturating.limit)

end Action

/-- What an operation counts on once its stack has been checked and its fixed price is paid. -/
def Operation.InBounds (env : Environment) (a : Active) : Operation → Prop
  | .frame op => op.InBounds env a.frame
  | .copyAccountCode =>
    ∀ source dest offset size f, FrameM.CopyInBounds source dest offset size f
  | .storeSlot =>
    ∀ (storage : Storage) (key value : Word), (storage.writeCost key value).1 ≤ Saturating.limit
  | .log topics => Action.LogInBounds topics env a
  | .create salted => Action.OpenCreateInBounds salted env a ∧ Action.CreateInBounds salted env a
  | .call scheme =>
    (∀ request b, Action.PayForCallInBounds request env b) ∧ Action.CallInBounds scheme env a
  | _ => True

/-- What the next step of a running machine counts on. -/
structure Machine.InBounds (m : Machine) : Prop where
  counter : m.frame.pc + 1 ≤ Saturating.limit
  stack : ∀ op, m.active.operation? = some op →
    m.frame.stack.size + op.info.outputs ≤ Saturating.limit
  operation : ∀ op, m.active.Starts op → op.InBounds m.environment (m.active.started op)
  /-- the search for jump destinations in the code of a callee -/
  search : ∀ callee purpose reversion b,
    Action.instruction m.environment m.active = .ok (.enter callee purpose reversion) b →
      ∀ p < callee.code.size,
        p + 1 + Operation.immediatesOf (Bytes.byteAt callee.code p) ≤ Saturating.limit
  /-- the price of a deposit -/
  deposit : ∀ output b s rest address, m.Ends (.success output) b → m.suspended = s :: rest →
    s.purpose = .create address → output.size ≤ codeSizeLimit →
      Gas.codeByte * output.size ≤ Saturating.limit
  /-- the start of the data that a callee leaves, at the place for its output -/
  delivery : ∀ outcome b s rest offset size (data : ByteArray), m.Ends outcome b →
    m.suspended = s :: rest → s.purpose = .call offset size →
      s.frame.memory.Writes offset (min size data.size)

/-! ## Ranges and prices -/

/-- A range that the memory covers can be written. -/
theorem Memory.writes_of_covers {m : Memory} {offset size : Nat}
    (h : size ≠ 0 → offset + size ≤ sizeLimit) (covered : m.covers offset size = true) :
    m.Writes offset size :=
  ⟨fun hsize => Nat.le_trans (h hsize) (by decide),
    covers_of_le covered (size_le_extend m offset size)⟩

/-- The price of the words of an addressable range is a counter. -/
theorem price_words_le {unit size : Nat} (hunit : unit ≤ 100) (hsize : size ≤ Memory.addressLimit) :
    unit * Gas.words size ≤ Saturating.limit := by
  have hwords : Gas.words size ≤ Gas.words Memory.addressLimit :=
    Nat.div_le_div_right (Nat.add_le_add_right hsize 31)
  exact Nat.le_trans (Nat.mul_le_mul hunit hwords) (by decide)

namespace FrameM

variable {f : Frame}

theorem after_region (offset size : Word) (f : Frame) :
    After (region offset size) (fun range g => range.2 = size.toNat ∧
      range.1 + range.2 ≤ Memory.addressLimit ∧ g.memory.covers range.1 range.2 = true) f :=
  fun _ _ h => region_eq_ok h

/-- The price of a region's words is a counter. -/
theorem after_region_price {unit : Nat} (hunit : unit ≤ 100) (offset size : Word) (f : Frame) :
    After (region offset size) (fun range _ => unit * Gas.words range.2 ≤ Saturating.limit) f :=
  (after_region offset size f).mono fun _ _ h =>
    price_words_le hunit (Nat.le_trans (Nat.le_add_left _ _) h.2.1)

theorem digest_inBounds (env : Environment) (f : Frame) : DigestInBounds env f := by
  refine ⟨by simp only [perform, bind_assoc], ?_⟩
  exact .bind_any fun offset _ => .bind_any fun size g =>
    after_region_price (by decide) offset size g

theorem copy_inBounds (source : ByteArray) (dest offset size : Word) (f : Frame) :
    CopyInBounds source dest offset size f := by
  refine ⟨rfl, (after_region dest size f).mono ?_⟩
  rintro range g ⟨_, hend, covered⟩
  refine ⟨price_words_le (by decide) (Nat.le_trans (Nat.le_add_left _ _) hend), ?_⟩
  exact Memory.writes_of_covers (fun _ => le_sizeLimit hend) covered

theorem store_inBounds {act : FrameM Unit} {width : Word} {bytes : Word → ByteArray}
    (h : act = do
      let offset ← pop
      let value ← pop
      let (offset, _) ← region offset width
      store offset width.toNat (bytes value)) (f : Frame) : StoreInBounds act width bytes f := by
  refine ⟨by simp only [h, bind_assoc, pure_bind], ?_⟩
  -- the value that is written does not matter, only the region
  refine .bind_any fun offset _ => .bind_any fun value g => .bind ?_
  refine (after_region offset width g).mono fun range h hr => .pure ?_
  obtain ⟨hsize, hend, covered⟩ := hr
  rw [hsize] at hend covered
  exact Memory.writes_of_covers (fun _ => le_sizeLimit hend) covered

theorem copyWithin_inBounds (f : Frame) : CopyWithinInBounds f := by
  refine ⟨by simp only [copyWithin, bind_assoc, pure_bind], ?_⟩
  refine .bind_any fun dest _ => .bind_any fun offset _ => .bind_any fun size g => ?_
  refine .bind fun source h hsource => .bind fun target k htarget => .pure ?_
  obtain ⟨_, hend, _⟩ := region_eq_ok hsource
  refine ⟨price_words_le (by decide) (Nat.le_trans (Nat.le_add_left _ _) hend), ?_⟩
  exact copyRegions_eq_ok hsource htarget

end FrameM

/-- An operation on the frame stays in bounds, if the bytes it pushes are no more than a word and
leave the counter one. -/
theorem FrameOp.inBounds {op : FrameOp} {env : Environment} {f : Frame}
    (pushes : ∀ size, op = .push size → size ≤ 32 ∧ f.pc + size ≤ Saturating.limit) :
    op.InBounds env f := by
  cases op with
  | exp =>
      intro exponent
      exact Nat.le_trans (Nat.mul_le_mul_left _ exponent.byteLength_le) (by decide)
  | keccak => exact FrameM.digest_inBounds env f
  | copy source => exact FrameM.copy_inBounds
  | storeWord => exact FrameM.store_inBounds rfl f
  | storeByte => exact FrameM.store_inBounds rfl f
  | copyMemory => exact FrameM.copyWithin_inBounds f
  | push size => exact pushes size rfl
  | _ => trivial

/-! ## Codes and nonces -/

/-- Every offset in the code is far from the largest counter, and the nonce is a counter. -/
structure Account.Sized (r : Account) : Prop where
  code : r.code.size ≤ Memory.capacity
  nonce : r.nonce ≤ Saturating.limit

theorem Account.sized_empty : empty.Sized := ⟨Nat.zero_le _, Nat.zero_le _⟩

/-- Every record is one whose counters keep their bounds. -/
def Accounts.Sized (xs : Accounts) : Prop := xs.Each fun _ r => r.Sized

theorem Accounts.Sized.reaches {xs ys : Accounts} {owns sites : Address → Prop} (h : xs.Sized)
    (reaches : ∀ b, Account.Reaches (owns b) (sites b) xs[b]? ys[b]?) : ys.Sized := by
  apply Each.reaches h reaches (fun _ => Account.sized_empty)
  intro b o r ho ha
  cases ha with
  | count own countable =>
      exact ⟨ho.code, Nat.succ_le_of_lt (Nat.lt_of_le_of_ne ho.nonce countable)⟩
  | construct code site => exact ⟨ho.code, show 1 ≤ Saturating.limit by decide⟩
  | storage s own => exact ⟨ho.code, ho.nonce⟩
  | debit value own => exact ⟨ho.code, ho.nonce⟩
  | credit value => exact ⟨ho.code, ho.nonce⟩

theorem Transaction.sized_openingAccounts {tx : Transaction} {xs : Accounts} (h : xs.Sized)
    (initial : ∀ code, tx.action = .create code → code.size ≤ Memory.capacity) :
    (tx.openingAccounts xs).Sized :=
  Accounts.Each.openingAccounts h (fun _ => Account.sized_empty)
    (fun _ _ _ hr => ⟨hr.code, hr.nonce⟩) (fun _ _ hr => ⟨hr.code, Nat.min_le_right _ _⟩)
    (fun _ _ hr => ⟨hr.code, hr.nonce⟩) fun code hcode => ⟨initial code hcode, Nat.zero_le _⟩

namespace Machine

/-- The running code and all records keep their bounds. -/
structure RunsSized (a : Active) : Prop where
  code : a.frame.code.size ≤ Memory.capacity
  accounts : a.world.accounts.Sized

/-- The suspended code and the records that would come back keep their bounds. -/
structure WaitsSized (s : Suspended) : Prop where
  code : s.frame.code.size ≤ Memory.capacity
  reversion : s.reversion.Sized

/-- A caller goes on with records that keep their bounds. -/
theorem WaitsSized.settled {s : Suspended} {w : World} (h : WaitsSized s) (hw : w.accounts.Sized)
    (gasLeft : Nat) (outcome : Outcome) : (s.settled gasLeft outcome w).accounts.Sized := by
  obtain ⟨_, heq⟩ | ⟨address, code, _, size, heq⟩ | heq := s.settled_cases gasLeft outcome w
  · rw [heq]
    exact hw
  · rw [heq]
    refine Accounts.Each.update hw Account.sized_empty fun r hr => ⟨?_, hr.nonce⟩
    exact Nat.le_trans size (by decide)
  · rw [heq]
    exact h.reversion

/-- The code of a callee is that of a record or a range of memory. -/
theorem RunsSized.callee {a b : Active} {depth : Nat} {callee : Frame} {purpose : Purpose}
    {reversion : Accounts} (h : RunsSized a) (enters : a.Enters depth callee purpose reversion b) :
    callee.code.size ≤ Memory.capacity := by
  obtain ⟨address, record, hrecord, hcode⟩ | hsize := enters.code
  · rw [hcode]
    exact (h.accounts address record hrecord).code
  · exact Nat.le_trans hsize (by decide)

theorem carries_sized (m : Machine) : m.Carries (.uniform RunsSized WaitsSized) where
  proceed := by
    intro b ha h
    exact ⟨(Action.instruction_frame h).code ▸ ha.code,
      Accounts.Sized.reaches ha.accounts (Action.instruction_record h)⟩
  enter := by
    intro callee purpose reversion b ha h
    have enters := Action.instruction_enters h
    have records : b.world.accounts.Sized := Accounts.Sized.reaches ha.accounts enters.sites.record
    refine ⟨⟨ha.callee enters, records⟩, (Action.instruction_frame h).code ▸ ha.code, ?_⟩
    show reversion.Sized
    rw [enters.restores]
    exact Accounts.Sized.reaches ha.accounts (m.active.restored_record _)
  ends ha ends :=
    ⟨ends.frame.code ▸ ha.code, Accounts.Sized.reaches ha.accounts ends.record⟩
  resume := by
    intro outcome b s rest f hs hb runs
    exact ⟨runs.code ▸ hs.code, hs.settled hb.accounts _ _⟩

end Machine

/-! ## Operations -/

theorem Operation.outputs_le (n : Fin 256) :
    (decode? (UInt8.ofFin n)).all (fun op => op.info.outputs ≤ 17) = true := by
  revert n; decide +kernel

theorem Operation.immediatesOf_le (opcode : UInt8) : immediatesOf opcode ≤ 32 := by
  unfold immediatesOf
  split
  · rename_i h
    have hlt : opcode.toNat < 128 := h.2
    omega
  · exact Nat.zero_le _

namespace Action

variable {env : Environment} {a : Active}

theorem accessCost_le (target : Address) (env : Environment) (a : Active) :
    After (accessCost target env) (fun access _ => access ≤ Gas.coldAccount) a := by
  refine after_bind_any fun cold b => .pure ?_
  split
  · exact Nat.le_refl _
  · exact Nat.zero_le _

theorem payForCall_inBounds (request : CallRequest) (env : Environment) (a : Active) :
    PayForCallInBounds request env a := by
  refine ⟨rfl, (accessCost_le request.target env a).mono ?_⟩
  intro access b haccess
  exact Nat.le_trans (Nat.add_le_add_right haccess _) (by decide)

theorem call_inBounds (scheme : CallScheme) (gas : a.frame.gas ≤ Saturating.limit) :
    CallInBounds scheme env a := by
  refine ⟨rfl, ?_⟩
  intro opened b ho
  -- what is handed on was the caller's own
  have hpaid := (openCall_eq_ok ho).paid
  show b.frame.gas + opened.forwarded ≤ _
  omega

theorem openCreate_inBounds (salted : Bool) : OpenCreateInBounds salted env a := by
  refine ⟨by simp only [openCreate, bind_assoc, pure_bind], ?_⟩
  refine after_bind_any fun _ _ => after_bind_any fun request b => .bind ?_
  have hunit : Gas.hashedWord ≤ 100 := by decide
  refine After.mono (after_onFrame (FrameM.after_region_price hunit _ _ _)) fun _ _ hprice => ?_
  exact .pure hprice

theorem create_inBounds (salted : Bool) (gas : a.frame.gas ≤ Saturating.limit)
    (sized : a.world.accounts.Sized) : CreateInBounds salted env a := by
  refine ⟨rfl, ?_⟩
  intro opened b ho can
  have opens := openCreate_eq_ok ho
  rw [opens.accounts] at can ⊢
  have hnonce := (sized.read (a := b.frame.account) Account.sized_empty).nonce
  -- what is handed on is taken from the gas that is left
  have hforward := Gas.forwardable_le b.frame.gas
  have hgas := opens.frame.gas
  exact ⟨Nat.succ_le_of_lt (Nat.lt_of_le_of_ne hnonce can.2.2), by omega⟩

theorem log_inBounds (topics : Nat) : LogInBounds topics env a := by
  refine ⟨by simp only [writeLog, bind_assoc, pure_bind], ?_⟩
  refine after_bind_any fun _ _ => after_bind_any fun offset _ => after_bind_any fun size _ => ?_
  refine after_bind_any fun words b => .bind ?_
  refine After.mono (after_onFrame (FrameM.after_region offset size b.frame)) fun range _ h => ?_
  have hsize : range.2 ≤ Memory.addressLimit := Nat.le_trans (Nat.le_add_left _ _) h.2.1
  exact .pure (Nat.le_trans (Nat.mul_le_mul_left _ hsize) (by decide))

end Action

/-- What an operation counts on is there, if what it pushes is in the code, the gas of its frame is
a counter and so are the nonces of all records. -/
theorem Operation.inBounds {op : Operation} {env : Environment} {a : Active}
    (pushes : ∀ size, op = .frame (.push size) → size ≤ 32 ∧ a.frame.pc + size ≤ Saturating.limit)
    (gas : a.frame.gas ≤ Saturating.limit) (sized : a.world.accounts.Sized) :
    op.InBounds env a := by
  cases op with
  | frame op => exact FrameOp.inBounds fun size h => pushes size (congrArg Operation.frame h)
  | copyAccountCode => exact FrameM.copy_inBounds
  | storeSlot =>
      exact fun storage key value => Nat.le_trans (storage.writeCost_le key value) (by decide)
  | log topics => exact Action.log_inBounds topics
  | create salted =>
      exact ⟨Action.openCreate_inBounds salted, Action.create_inBounds salted gas sized⟩
  | call scheme =>
      have pays : ∀ request b, Action.PayForCallInBounds request env b := fun request =>
        Action.payForCall_inBounds request env
      exact ⟨pays, Action.call_inBounds scheme gas⟩
  | _ => trivial

namespace Code

variable {code : ByteArray} {p : Nat}

/-- No instruction starts further behind the code than the bytes of a pushing one reach. -/
theorem IsStart.le (h : IsStart code p) : p ≤ code.size + 32 := by
  cases h with
  | first => exact Nat.zero_le _
  | @next q _ inside =>
      have himmediates := Operation.immediatesOf_le (Bytes.byteAt code q)
      omega

end Code

namespace Machine

variable {m : Machine}

/-! ## A machine -/

/-- What an operation pushes is in the code, give or take a word. -/
theorem starts_pushes {op : Operation} (starts : m.active.Starts op)
    (code : m.frame.code.size ≤ Memory.capacity) :
    ∀ size, op = .frame (.push size) →
      size ≤ 32 ∧ (m.active.started op).frame.pc + size ≤ Saturating.limit := by
  rintro size rfl
  have himmediates : Operation.immediatesOf (Bytes.byteAt m.frame.code m.frame.pc) = size :=
    starts.immediates
  have hsize := Operation.immediatesOf_le (Bytes.byteAt m.frame.code m.frame.pc)
  have inside : m.frame.pc < m.frame.code.size := starts.inside nofun
  have far : Memory.capacity + 33 ≤ Saturating.limit := by decide
  rw [himmediates] at hsize
  refine ⟨hsize, ?_⟩
  show m.frame.pc + 1 + size ≤ _
  omega

/-- A well-formed machine whose codes and nonces are of a size stays in bounds. -/
theorem inBounds (formed : m.WellFormed) (room : m.Room) (ha : m.frame.AtStart)
    (sized : RunsSized m.active) (gas : m.totalGas ≤ Saturating.limit) : m.InBounds where
  counter := by
    have hpc := ha.start.le
    have hcode : m.frame.code.size ≤ Memory.capacity := sized.code
    have far : Memory.capacity + 33 ≤ Saturating.limit := by decide
    omega
  stack := by
    intro op hop
    have houtputs := Operation.outputs_le (Bytes.byteAt m.frame.code m.frame.pc).toFin
    have hdecode : Operation.decode? (Bytes.byteAt m.frame.code m.frame.pc) = some op := hop
    rw [UInt8.ofFin_toFin, hdecode] at houtputs
    have hop : op.info.outputs ≤ 17 := of_decide_eq_true houtputs
    exact Nat.le_trans (Nat.add_le_add formed.stack hop) (by decide)
  operation := by
    intro op starts
    refine Operation.inBounds (starts_pushes starts sized.code) ?_ sized.accounts
    have hstart : (m.active.started op).frame.gas ≤ m.frame.gas := Nat.sub_le _ _
    exact Nat.le_trans hstart (Nat.le_trans (Nat.le_add_right _ _) gas)
  search := by
    intro callee purpose reversion b h p hp
    have hcode := sized.callee (Action.instruction_enters h)
    have himmediates := Operation.immediatesOf_le (Bytes.byteAt callee.code p)
    have far : Memory.capacity + 33 ≤ Saturating.limit := by decide
    omega
  deposit := by
    intro output b s rest address _ _ _ hsize
    exact Nat.le_trans (Nat.mul_le_mul_left _ hsize) (by decide)
  delivery := by
    intro outcome b s rest offset size data _ callers hp
    have hs : s ∈ m.suspended := callers ▸ List.mem_cons_self
    -- the place was made usable before the call, and no more than that is written
    have covered := Memory.covers_min ((room s hs).output offset size hp) data.size
    have hmemory := ((forall_mem_frames.1 formed.memory).2 s hs).2
    refine Memory.writes_of_covers (fun hsize => ?_) covered
    exact Nat.le_trans ((Memory.covers_iff.1 covered).resolve_left hsize) hmemory

/-- A step leaves one frame at most. -/
theorem depth_le_step (room : m.Room) : m.depth ≤ m.step.depth + 1 := by
  cases hr : m.result with
  | some outcome =>
      rw [step_eq_self hr]
      exact Nat.le_succ _
  | none =>
      have moves := moves_step hr room
      generalize m.step = n at moves ⊢
      cases moves with
      | proceed h => exact Nat.le_succ _
      | enter h => exact Nat.le_succ_of_le (Nat.le_succ _)
      | resume ends callers runs => exact Nat.le_of_eq (congrArg List.length callers)
      | finish ends alone => exact Nat.le_succ _

/-- Where no code is so long that an offset in it is no counter, every machine along the run of a
transaction is well-formed, its next step stays in bounds and leaves one frame at most, and every
caller in it can take up every outcome of its callee. -/
theorem run_stays_in_bounds {tx : Transaction} {gasLimit : UInt64} {before : Machine}
    (h : tx.prepare gasLimit before = .ok m) (sized : before.accounts.Sized)
    (initial : ∀ code, tx.action = .create code → code.size ≤ Memory.capacity) (n : Nat) :
    (step^[n] m).WellFormed ∧
      ((step^[n] m).result = none → (step^[n] m).InBounds) ∧
      (∀ s ∈ (step^[n] m).suspended, ∀ gasLeft outcome w,
        ∃ caller, s.resume gasLeft outcome w = .ok () caller) ∧
      (step^[n] m).depth ≤ (step^[n + 1] m).depth + 1 := by
  have reachable : (step^[n] m).Reachable := (Reachable.prepared h).iterate n
  have room := reachable.room
  have formed := reachable.wellFormed
  have start : RunsSized m.active := by
    obtain ⟨_, rfl⟩ := Transaction.prepare_eq_ok.1 h
    have opening : (tx.openingAccounts before.accounts).Sized :=
      Transaction.sized_openingAccounts sized initial
    exact ⟨(opening.read Account.sized_empty).code, opening⟩
  refine ⟨formed, ?_, ?_, ?_⟩
  · intro running
    have holds : (step^[n] m).Holds (.uniform RunsSized WaitsSized) [] :=
      holds_run h start n fun _ _ _ => carries_sized _
    have ha : (step^[n] m).frame.AtStart := reachable.holds_walking.running running
    exact inBounds formed room ha holds.active (totalGas_le_limit h n)
  · intro s hs gasLeft outcome w
    obtain ⟨f, hf, _⟩ := Suspended.resume_eq_ok (room s hs) gasLeft outcome w
    exact ⟨_, hf⟩
  · rw [Function.iterate_succ_apply']
    exact depth_le_step room

/-- A machine about to hand the output of an account to its caller. -/
def outputCall : Machine :=
  step^[10] (Transaction.ofFirst.opening 100000 (ofCodes
    ⟨#[0x60, 40, 0x5f, 0x5f, 0x5f, 0x5f, 0x60, 2, 0x5a, 0xf1]⟩ ⟨#[0x60, 64, 0x5f, 0xf3]⟩))

theorem outputCall_in_bounds :
    outputCall.depth = 1 ∧ outputCall.WellFormed ∧ outputCall.InBounds := by
  have sized : (ofCodes ⟨#[0x60, 40, 0x5f, 0x5f, 0x5f, 0x5f, 0x60, 2, 0x5a, 0xf1]⟩
      ⟨#[0x60, 64, 0x5f, 0xf3]⟩).accounts.Sized :=
    Accounts.each_ofCodes ⟨by decide, by decide⟩ ⟨by decide, by decide⟩
  obtain ⟨formed, inside, _⟩ :=
    run_stays_in_bounds (Transaction.prepare_ofFirst 100000 _) sized nofun 10
  have running : outputCall.result = none := Option.isNone_iff_eq_none.1 (by decide +kernel)
  exact ⟨by decide +kernel, formed, inside running⟩

end Machine

end EvmHarness
