import EvmHarness.Proofs.LookUp
import EvmHarness.Proofs.MemoryView
import EvmHarness.Proofs.Unclassified
import Mathlib.Algebra.Ring.Nat
set_option autoImplicit false

/-!
# Copies of what lies outside memory

Call data, code and return data are copied into memory as if endless zeros followed them, and a word
of call data is read in the same way.  Where in its source a copy starts, and where the source ends,
decides which bytes are written and never whether they are: that hangs on the range of memory, the
gas and, for the code of another account, on its record.  Only return data has an end that may not
be passed.
-/

namespace EvmHarness

namespace Bytes

/-- The digits of a number that bytes write are the bytes, the first one the most significant. -/
theorem digit_numberAt (b : ByteArray) (offset : Nat) {n i : Nat} (h : i < n) :
    numberAt b offset n / 256 ^ (n - 1 - i) % 256 = (byteAt b (offset + i)).toNat := by
  induction n with
  | zero => exact absurd h (Nat.not_lt_zero i)
  | succ n ih =>
      have byte := (byteAt b (offset + n)).toNat_lt
      rw [numberAt]
      obtain earlier | rfl := Nat.lt_succ_iff_lt_or_eq.1 h
      · -- one byte further from the end, the last one is divided away
        have shift : 256 ^ (n + 1 - 1 - i) = 256 * 256 ^ (n - 1 - i) := by
          rw [← Nat.pow_succ']
          congr 1
          omega
        have shorter : (numberAt b offset n * 256 + (byteAt b (offset + n)).toNat) / 256 =
            numberAt b offset n := by omega
        rw [shift, ← Nat.div_div_eq_div_mul, shorter, ih earlier]
      · rw [Nat.add_sub_cancel, Nat.sub_self, Nat.pow_zero, Nat.div_one]
        omega

end Bytes

/-! ## What is asked for -/

/-- The copy of bytes from outside memory that an instruction asks for. -/
structure CopyRequest where
  source : ByteArray
  dest : Word
  offset : Word
  size : Word

namespace CopyRequest

/-- The request on the words of a stack that has enough of them. -/
def ofWords (source : ByteArray) (words : List Word) : CopyRequest where
  source := source
  dest := words.getD 0 0
  offset := words.getD 1 0
  size := words.getD 2 0

/-- The request has been met between the two memories: its range holds the bytes of the source,
continued by endless zeros, no other byte has changed, and memory has grown by whole words, and no
further than to the end of the range. -/
structure Met (request : CopyRequest) (m n : Memory) : Prop where
  copied : ∀ i < request.size.toNat, n.byteAt (request.dest.toNat + i) =
    Bytes.byteAt request.source (request.offset.toNat + i)
  kept : ∀ i, i < request.dest.toNat ∨ request.dest.toNat + request.size.toNat ≤ i →
    n.byteAt i = m.byteAt i
  size : n.size =
    if request.size = 0 then m.size
    else max m.size (Gas.words (request.dest.toNat + request.size.toNat) * 32)

end CopyRequest

/-- The price of copying some bytes into a range of memory. -/
def Memory.copyPrice (m : Memory) (dest size : Word) : Nat :=
  m.expansionCost dest.toNat size.toNat + Gas.copiedWord * Gas.words size.toNat

namespace Active

/-- The account whose code is copied next, if any is. -/
def copiedAccount (a : Active) : Address := .ofWord (a.frame.stack.words.getD 0 0)

/-- What an operation asks to copy from outside memory, if it copies anything. -/
def copyRequest? (a : Active) : Operation → Option CopyRequest
  | .frame (.copy .callData) => some (.ofWords a.frame.callData a.frame.stack.words)
  | .frame (.copy .code) => some (.ofWords a.frame.code a.frame.stack.words)
  | .frame (.copy .returnData) => some (.ofWords a.frame.returnData a.frame.stack.words)
  | .copyAccountCode =>
    some (.ofWords (a.world.accounts.read a.copiedAccount).code (a.frame.stack.words.drop 1))
  | _ => none

/-- A copy that is asked for is one of bytes of the frame or of the code of an account. -/
theorem copyRequest?_cases {a : Active} {op : Operation} {request : CopyRequest}
    (asked : a.copyRequest? op = some request) :
    (∃ source, op = .frame (.copy source) ∧
        request = .ofWords (FrameM.sourceBytes a.frame source) a.frame.stack.words) ∨
      op = .copyAccountCode ∧
        request =
          .ofWords (a.world.accounts.read a.copiedAccount).code (a.frame.stack.words.drop 1) := by
  unfold copyRequest? at asked
  split at asked
  · exact .inl ⟨.callData, rfl, (Option.some.inj asked).symm⟩
  · exact .inl ⟨.code, rfl, (Option.some.inj asked).symm⟩
  · exact .inl ⟨.returnData, rfl, (Option.some.inj asked).symm⟩
  · exact .inr ⟨rfl, (Option.some.inj asked).symm⟩
  · exact absurd asked.symm (Option.some_ne_none _)

/-- The price of looking up the account whose code is copied. -/
def copyTouchPrice (a : Active) (op : Operation) : Nat :=
  if op = .copyAccountCode then a.touchPrice a.copiedAccount Gas.coldAccount else 0

/-- Everything that a copy into a range of memory needs, wherever it comes from: the range can be
addressed, all of it is paid for, and an account that is looked up is known where it has to be. -/
structure CanCopy (env : Environment) (a : Active) (op : Operation) (dest size : Word) : Prop where
  addressable : ¬ Unaddressable dest size
  paid : op.info.price + a.copyTouchPrice op + a.frame.memory.copyPrice dest size ≤ a.frame.gas
  known : op = .copyAccountCode → env.setting.strict = true → a.copiedAccount ∈ a.world.accounts

end Active

/-! ## How a copy ends -/

variable {source : ByteArray} {dest offset size : Word}

namespace FrameM

/-- The range that is made usable: an empty one lies at zero. -/
def usableRange (offset size : Word) : Nat × Nat :=
  if size = 0 then (0, 0) else (offset.toNat, size.toNat)

theorem usableRange_size (offset size : Word) : (usableRange offset size).2 = size.toNat := by
  unfold usableRange
  split
  · rename_i empty
    rw [empty]
    rfl
  · rfl

/-- Where an empty range lies does not matter to what is written there. -/
theorem store_usableRange (m : Memory) (offset size : Word) (value : ByteArray) :
    m.store (usableRange offset size).1 size.toNat value =
      m.store offset.toNat size.toNat value := by
  unfold usableRange
  split
  · rename_i empty
    have nothing : size.toNat = 0 := by rw [empty]; rfl
    rw [nothing, Memory.store_zero, Memory.store_zero]
  · rfl

/-- A range of memory is made usable where it can be addressed and growing up to it is paid for. -/
theorem region_eq_ok_iff {f g : Frame} {range : Nat × Nat} :
    region offset size f = .ok range g ↔
      ¬ Active.Unaddressable offset size ∧
        f.memory.expansionCost offset.toNat size.toNat ≤ f.gas ∧
        range = usableRange offset size ∧
        g = { f with
          gas := f.gas - f.memory.expansionCost offset.toNat size.toNat
          memory := f.memory.extend offset.toNat size.toNat } := by
  rw [region_apply, usableRange]
  by_cases empty : size = 0
  · subst empty
    have addressable : ¬ Active.Unaddressable offset 0 := fun outside => outside.1 rfl
    have free : f.memory.expansionCost offset.toNat (0 : Word).toNat = 0 := rfl
    have same : f.memory.extend offset.toNat (0 : Word).toNat = f.memory := rfl
    rw [if_pos rfl, if_pos rfl, free, same]
    constructor
    · intro made
      obtain ⟨rfl, rfl⟩ := EStateM.Result.ok.inj made
      exact ⟨addressable, Nat.zero_le _, rfl, rfl⟩
    · rintro ⟨_, _, rfl, rfl⟩
      rfl
  · rw [if_neg empty, if_neg empty]
    by_cases inside : offset.toNat + size.toNat ≤ Memory.addressLimit
    · have addressable : ¬ Active.Unaddressable offset size := fun outside =>
        absurd outside.2 (Nat.not_lt_of_le inside)
      rw [if_pos inside]
      dsimp only
      split
      · rename_i covered
        simp [addressable, covered, eq_comm]
      · rename_i short
        simp [short]
    · have outside : Active.Unaddressable offset size := ⟨empty, Nat.lt_of_not_le inside⟩
      rw [if_neg inside]
      simp [outside]

/-- A copy is made where its range can be addressed and all of it is paid for.  Its source has no
say in that. -/
theorem copyIn_eq_ok {f g : Frame} {u : Unit} :
    copyIn source dest offset size f = .ok u g ↔
      ¬ Active.Unaddressable dest size ∧ f.memory.copyPrice dest size ≤ f.gas ∧
        g = { f with
          gas := f.gas - f.memory.copyPrice dest size
          memory := (f.memory.extend dest.toNat size.toNat).store dest.toNat size.toNat
            (Bytes.slice source offset.toNat size.toNat) } := by
  have paidFor (h : Frame) :
      (charge (Gas.copiedWord * Gas.words (usableRange dest size).2) >>= fun _ =>
          store (usableRange dest size).1 (usableRange dest size).2
            (Bytes.slice source offset.toNat (usableRange dest size).2)) h = .ok u g ↔
        Gas.copiedWord * Gas.words size.toNat ≤ h.gas ∧
          g = { h with
            gas := h.gas - Gas.copiedWord * Gas.words size.toNat
            memory := h.memory.store dest.toNat size.toNat
              (Bytes.slice source offset.toNat size.toNat) } := by
    rw [usableRange_size, bind_eq_ok, ← store_usableRange]
    constructor
    · rintro ⟨_, _, paid, stored⟩
      obtain ⟨covered, rfl⟩ := charge_eq_ok.1 paid
      obtain ⟨_, rfl⟩ := EStateM.Result.ok.inj stored
      exact ⟨covered, rfl⟩
    · rintro ⟨covered, rfl⟩
      exact ⟨(), _, charge_eq_ok.2 ⟨covered, rfl⟩, rfl⟩
  unfold copyIn Memory.copyPrice
  rw [bind_eq_ok]
  constructor
  · rintro ⟨_, _, made, copied⟩
    obtain ⟨addressable, grown, rfl, rfl⟩ := region_eq_ok_iff.1 made
    obtain ⟨covered, rfl⟩ := (paidFor _).1 copied
    dsimp only at covered
    exact ⟨addressable, by omega, by rw [Nat.sub_sub]⟩
  · rintro ⟨addressable, paid, rfl⟩
    refine ⟨_, _, region_eq_ok_iff.2 ⟨addressable, by omega, rfl, rfl⟩, (paidFor _).2 ⟨?_, ?_⟩⟩
    · dsimp only
      omega
    · rw [Nat.sub_sub]

end FrameM

/-- What a copy leaves in memory. -/
theorem CopyRequest.met_of_copyIn {request : CopyRequest} {f g : Frame} {u : Unit}
    (copied : FrameM.copyIn request.source request.dest request.offset request.size f = .ok u g) :
    request.Met f.memory g.memory := by
  obtain ⟨addressable, -, rfl⟩ := FrameM.copyIn_eq_ok.1 copied
  rcases request with ⟨source, dest, offset, size⟩
  by_cases empty : size = 0
  · have nothing : size.toNat = 0 := by rw [empty]; rfl
    refine ⟨?_, ?_, ?_⟩
    · intro i inside
      exact absurd (nothing ▸ inside) (Nat.not_lt_zero i)
    · intro i _
      dsimp only
      rw [nothing, Memory.store_zero, Memory.extend_zero]
    · dsimp only
      rw [if_pos empty, nothing, Memory.store_zero, Memory.extend_zero]
  · have inside : dest.toNat + size.toNat ≤ Memory.sizeLimit :=
      FrameM.le_sizeLimit (Nat.le_of_not_lt fun past => addressable ⟨empty, past⟩)
    have some : size.toNat ≠ 0 := fun none => empty (BitVec.eq_of_toNat_eq none)
    have long : size.toNat ≤ (Bytes.slice source offset.toNat size.toNat).size :=
      Nat.le_of_eq (Bytes.size_slice _ _ _).symm
    have covered := Memory.covers_extend (f.memory.extend dest.toNat size.toNat) inside
    have written (i : Nat) := Memory.byteAt_store
      (Bytes.slice source offset.toNat size.toNat) covered i
    refine ⟨?_, ?_, ?_⟩
    · intro i hi
      dsimp only at hi ⊢
      rw [written, if_pos ⟨Nat.le_add_right _ _, by omega⟩, Nat.add_sub_cancel_left,
        Memory.byteAt_fit long hi, Bytes.byteAt_slice _ _ hi]
    · intro i hi
      dsimp only at hi ⊢
      rw [written, if_neg (by omega), Memory.byteAt_extend]
    · dsimp only
      rw [if_neg empty, Memory.size_store _ covered, Memory.size_extend _ _ _ some,
        Memory.size_extend _ _ _ some, Memory.wordsTo_eq inside, Gas.words]
      omega

/-! ## The instructions -/

namespace Action

variable {env : Environment} {a b : Active} {op : Operation} {next : Next}

/-- A look-up finds what is there, and something has to be where records are demanded. -/
theorem recordAt_eq_ok_iff {address : Address} {record : Option Account} :
    recordAt address env a = .ok record b ↔
      (env.setting.strict = true → address ∈ a.world.accounts) ∧
        record = a.world.accounts[address]? ∧ b = a := by
  have known : address ∈ a.world.accounts ↔ a.world.accounts[address]?.isSome :=
    Std.ExtTreeMap.isSome_getElem?_iff_mem.symm
  constructor
  · intro h
    refine ⟨fun strict => ?_, recordAt_eq_ok h⟩
    rw [recordAt_apply] at h
    cases found : a.world.accounts[address]? with
    | some record => exact known.2 (found ▸ rfl)
    | none =>
        rw [found] at h
        exact absurd ((if_pos strict).symm.trans h) nofun
  · rintro ⟨demanded, rfl, rfl⟩
    rw [recordAt_apply]
    cases found : b.world.accounts[address]? with
    | some record => rfl
    | none =>
        have absent : address ∉ b.world.accounts := fun there => by
          rw [known, found] at there
          cases there
        exact if_neg fun strict => absent (demanded strict)

/-- A visit pays for the touch and looks the record up. -/
theorem visit_eq_ok {address : Address} {record : Option Account} :
    visit address env a = .ok record b ↔
      a.touchPrice address Gas.coldAccount ≤ a.frame.gas ∧
        (env.setting.strict = true → address ∈ a.world.accounts) ∧
        record = a.world.accounts[address]? ∧
        b = { frame := { a.frame with gas := a.frame.gas - a.touchPrice address Gas.coldAccount }
              world := a.world.touch address } := by
  have charged := charge_apply (a.touchPrice address Gas.coldAccount) env
    { a with world := a.world.touch address }
  rw [visit, bind_of_eq_ok (accessCost_apply address env a)]
  by_cases covered : a.touchPrice address Gas.coldAccount ≤ a.frame.gas
  · rw [bind_of_eq_ok (charged.trans (if_pos covered)), recordAt_eq_ok_iff]
    exact (and_iff_right covered).symm
  · rw [bind_of_eq_error (charged.trans (if_neg covered))]
    exact iff_of_false nofun fun h => covered h.1

/-- A copy of bytes of the frame. -/
theorem copyFrom_eq_ok {source : CopySource} {dest offset size : Word} {rest : List Word}
    (words : a.frame.stack.words = dest :: offset :: size :: rest) :
    perform (.frame (.copy source)) env a = .ok next b ↔
      next = .proceed ∧ b.world = a.world ∧
        ¬(source = .returnData ∧
          (FrameM.sourceBytes a.frame source).size < offset.toNat + size.toNat) ∧
        FrameM.copyIn (FrameM.sourceBytes a.frame source) dest offset size
          { a.frame with stack := ⟨rest⟩ } = .ok () b.frame := by
  have copied := FrameM.copyFrom_apply source words
  have performed : perform (.frame (.copy source)) env a =
      (onFrame (FrameM.copyFrom source) >>= fun _ => pure Next.proceed) env a := rfl
  rw [performed, bind_eq_ok]
  by_cases overrun : source = .returnData ∧
      (FrameM.sourceBytes a.frame source).size < offset.toNat + size.toNat
  · rw [if_pos overrun] at copied
    refine iff_of_false ?_ fun h => h.2.2.1 overrun
    rintro ⟨_, c, h, _⟩
    exact absurd (copied.symm.trans (onFrame_eq_ok.1 h).1) nofun
  · rw [if_neg overrun] at copied
    constructor
    · rintro ⟨_, c, h, hc⟩
      obtain ⟨h, world⟩ := onFrame_eq_ok.1 h
      obtain ⟨rfl, rfl⟩ := pure_eq_ok.1 hc
      exact ⟨rfl, world, overrun, copied.symm.trans h⟩
    · rintro ⟨rfl, world, _, h⟩
      exact ⟨(), b, onFrame_eq_ok.2 ⟨copied.trans h, world⟩, pure_eq_ok.2 ⟨rfl, rfl⟩⟩

/-- A copy of the code of an account. -/
theorem copyAccountCode_eq_ok {w dest offset size : Word} {rest : List Word}
    (words : a.frame.stack.words = w :: dest :: offset :: size :: rest) :
    perform .copyAccountCode env a = .ok next b ↔
      next = .proceed ∧ b.world = a.world.touch (.ofWord w) ∧
        a.touchPrice (.ofWord w) Gas.coldAccount ≤ a.frame.gas ∧
        (env.setting.strict = true → Address.ofWord w ∈ a.world.accounts) ∧
        FrameM.copyIn (a.world.accounts.read (.ofWord w)).code dest offset size
          { a.frame with
            stack := ⟨rest⟩
            gas := a.frame.gas - a.touchPrice (.ofWord w) Gas.coldAccount } = .ok () b.frame := by
  have performed : perform .copyAccountCode env a =
      (visit (.ofWord w) >>= fun found =>
        onFrame (FrameM.copyIn (found.getD .empty).code dest offset size) >>= fun _ =>
          pure Next.proceed) env { a with frame := { a.frame with stack := ⟨rest⟩ } } := by
    refine (bind_of_eq_ok (pop_apply words env) _).trans ?_
    refine (bind_of_eq_ok (pop_apply rfl env) _).trans ?_
    refine (bind_of_eq_ok (pop_apply rfl env) _).trans ?_
    refine (bind_of_eq_ok (pop_apply rfl env) _).trans ?_
    refine congrFun (congrFun (bind_congr fun found => ?_) env) _
    cases found <;> rfl
  rw [performed, bind_eq_ok, Accounts.read_eq]
  constructor
  · rintro ⟨found, c, visited, h⟩
    obtain ⟨paid, known, rfl, rfl⟩ := visit_eq_ok.1 visited
    obtain ⟨_, d, h, hd⟩ := bind_eq_ok.1 h
    obtain ⟨copied, world⟩ := onFrame_eq_ok.1 h
    obtain ⟨rfl, rfl⟩ := pure_eq_ok.1 hd
    exact ⟨rfl, world, paid, known, copied⟩
  · rintro ⟨rfl, world, paid, known, copied⟩
    refine ⟨_, _, visit_eq_ok.2 ⟨paid, known, rfl, rfl⟩, ?_⟩
    exact bind_eq_ok.2 ⟨(), b, onFrame_eq_ok.2 ⟨copied, world⟩, pure_eq_ok.2 ⟨rfl, rfl⟩⟩

/-- An operation that copies, once it has started, overruns return data, fails to look an account
up, or comes down to the copy. -/
theorem copies_eq_ok {request : CopyRequest} (starts : a.Starts op)
    (asked : a.copyRequest? op = some request) :
    instruction env a = .ok next b ↔
      (next = .proceed ∧
        b.world = if op = .copyAccountCode then a.world.touch a.copiedAccount else a.world) ∧
      ¬(op = .frame (.copy .returnData) ∧
        request.source.size < request.offset.toNat + request.size.toNat) ∧
      (op = .copyAccountCode → env.setting.strict = true → a.copiedAccount ∈ a.world.accounts) ∧
      a.copyTouchPrice op ≤ a.frame.gas - op.info.price ∧
      FrameM.copyIn request.source request.dest request.offset request.size
        { a.frame with
          pc := a.frame.pc + 1
          stack := ⟨a.frame.stack.words.drop op.info.inputs⟩
          gas := a.frame.gas - op.info.price - a.copyTouchPrice op } = .ok () b.frame := by
  rw [instruction_of_starts env starts]
  obtain ⟨source, rfl, rfl⟩ | ⟨rfl, rfl⟩ := Active.copyRequest?_cases asked
  · obtain ⟨dest, offset, size, rest, words⟩ := starts.copy_words
    rcases a with ⟨⟨account, codeAccount, code, jumpDests, pc, ⟨stack⟩, memory, callData,
      callValue, caller, gas, returnData, isStatic⟩, world⟩
    obtain rfl : stack = dest :: offset :: size :: rest := words
    rw [copyFrom_eq_ok rfl]
    constructor
    · rintro ⟨rfl, same, within, copied⟩
      refine ⟨⟨rfl, same⟩, ?_, nofun, Nat.zero_le _, ?_⟩
      · rintro ⟨overrun, short⟩
        cases overrun
        exact within ⟨rfl, short⟩
      · cases source <;> exact copied
    · rintro ⟨⟨rfl, same⟩, within, -, -, copied⟩
      refine ⟨rfl, same, ?_, ?_⟩
      · rintro ⟨rfl, short⟩
        exact within ⟨rfl, short⟩
      · cases source <;> exact copied
  · have inputs : 4 ≤ a.frame.stack.words.length := starts.inputs
    obtain ⟨w, dest, offset, size, rest, words⟩ :
        ∃ w dest offset size rest, a.frame.stack.words = w :: dest :: offset :: size :: rest := by
      match a.frame.stack.words, inputs with
      | w :: dest :: offset :: size :: rest, _ => exact ⟨w, dest, offset, size, rest, rfl⟩
    rcases a with ⟨⟨account, codeAccount, code, jumpDests, pc, ⟨stack⟩, memory, callData,
      callValue, caller, gas, returnData, isStatic⟩, world⟩
    obtain rfl : stack = w :: dest :: offset :: size :: rest := words
    rw [copyAccountCode_eq_ok rfl]
    constructor
    · rintro ⟨rfl, same, paid, known, copied⟩
      exact ⟨⟨rfl, same⟩, nofun, fun _ => known, paid, copied⟩
    · rintro ⟨⟨rfl, same⟩, -, known, paid, copied⟩
      exact ⟨rfl, same, paid, known rfl, copied⟩

variable {request : CopyRequest}

/-- A copy that completes has been met. -/
theorem met_of_instruction (starts : a.Starts op) (asked : a.copyRequest? op = some request)
    (h : instruction env a = .ok next b) :
    next = .proceed ∧ request.Met a.frame.memory b.frame.memory := by
  obtain ⟨⟨rfl, -⟩, -, -, -, copied⟩ := (copies_eq_ok starts asked).1 h
  have met := CopyRequest.met_of_copyIn copied
  exact ⟨rfl, met⟩

/-- A copy completes where it has what it needs and does not overrun return data. -/
theorem completes_iff (starts : a.Starts op) (asked : a.copyRequest? op = some request) :
    (∃ next b, instruction env a = .ok next b) ↔
      a.CanCopy env op request.dest request.size ∧
        (op = .frame (.copy .returnData) →
          request.offset.toNat + request.size.toNat ≤ request.source.size) := by
  have price := starts.price
  constructor
  · rintro ⟨next, b, h⟩
    obtain ⟨-, within, known, touched, copied⟩ := (copies_eq_ok starts asked).1 h
    obtain ⟨addressable, paid, -⟩ := FrameM.copyIn_eq_ok.1 copied
    dsimp only at paid
    refine ⟨⟨addressable, by omega, known⟩, fun returnData => ?_⟩
    exact Nat.le_of_not_lt fun short => within ⟨returnData, short⟩
  · rintro ⟨⟨addressable, paid, known⟩, within⟩
    have room : a.frame.memory.copyPrice request.dest request.size ≤
        a.frame.gas - op.info.price - a.copyTouchPrice op := by omega
    refine ⟨.proceed,
      ⟨_, if op = .copyAccountCode then a.world.touch a.copiedAccount else a.world⟩,
      (copies_eq_ok starts asked).2 ⟨⟨rfl, rfl⟩, ?_, known, by omega,
        FrameM.copyIn_eq_ok.2 ⟨addressable, room, rfl⟩⟩⟩
    rintro ⟨returnData, short⟩
    exact Nat.not_lt_of_le (within returnData) short

/-- A copy that stays inside return data does not overrun it, nor does any other copy. -/
theorem not_overrun (starts : a.Starts op) (asked : a.copyRequest? op = some request)
    (within : op = .frame (.copy .returnData) →
      request.offset.toNat + request.size.toNat ≤ request.source.size) :
    instruction env a ≠ .error .returnDataOverrun b := by
  intro h
  rw [instruction_of_starts env starts] at h
  suffices classed : Fault.returnDataOverrun.Classed from classed rfl
  obtain ⟨source, rfl, rfl⟩ | ⟨rfl, rfl⟩ := Active.copyRequest?_cases asked
  · obtain ⟨dest, offset, size, rest, words⟩ := starts.copy_words
    have copied := FrameM.copyFrom_apply source
      (f := (a.started (.frame (.copy source))).frame) words
    rw [if_neg] at copied
    · have h : (onFrame (FrameM.copyFrom source) >>= fun _ => pure Next.proceed) env
          (a.started (.frame (.copy source))) = .error .returnDataOverrun b := h
      rcases bind_eq_error.1 h with h | ⟨_, _, _, h⟩
      · exact FrameM.raises_copyIn _ _ _ _ (copied.symm.trans (onFrame_eq_error.1 h).1)
      · exact absurd h nofun
    · rintro ⟨rfl, short⟩
      have within := within rfl
      rw [words] at within
      exact Nat.not_lt_of_le within short
  · exact raises_copyAccountCode env h

/-- Of the copies, only that of return data overruns its source, and exactly where its range reaches
past the end. -/
theorem overruns_iff (starts : a.Starts op) (asked : a.copyRequest? op = some request) :
    (∃ b, instruction env a = .error .returnDataOverrun b) ↔
      op = .frame (.copy .returnData) ∧
        request.source.size < request.offset.toNat + request.size.toNat := by
  constructor
  · rintro ⟨b, h⟩
    by_contra fine
    refine not_overrun starts asked (fun returnData => ?_) h
    exact Nat.le_of_not_lt fun short => fine ⟨returnData, short⟩
  · rintro ⟨rfl, short⟩
    obtain rfl := Option.some.inj asked
    obtain ⟨dest, offset, size, rest, words⟩ := starts.copy_words
    rw [words] at short
    exact instruction_of_overruns env ⟨starts, dest, offset, size, rest, words, short⟩

/-- A word of call data is read without fail, wherever it lies, and its bytes are those that a copy
from there would write. -/
theorem callDataLoad_reads (starts : a.Starts (.frame .callDataLoad)) :
    ∃ offset w rest b, a.frame.stack.words = offset :: rest ∧
      instruction env a = .ok .proceed b ∧ b.frame.stack.words = w :: rest ∧
      ∀ i < 32, w.toNat / 256 ^ (31 - i) % 256 =
        (Bytes.byteAt a.frame.callData (offset.toNat + i)).toNat := by
  obtain ⟨offset, rest, words⟩ : ∃ offset rest, a.frame.stack.words = offset :: rest :=
    List.exists_cons_of_length_pos starts.inputs
  have room : rest.length < Stack.limit := by
    have room : a.frame.stack.words.length - 1 + 1 ≤ Stack.limit := starts.room
    rw [words, List.length_cons] at room
    exact room
  have popped := FrameM.pop_apply (a.started (.frame .callDataLoad)).frame
  have same : (a.started (.frame .callDataLoad)).frame.stack.words = offset :: rest := words
  rw [same] at popped
  have fits : Bytes.wordAt a.frame.callData offset.toNat < 2 ^ 256 := by
    rw [Bytes.wordAt_eq]
    exact Bytes.numberAt_lt _ _ 32
  have loaded : FrameM.perform env .callDataLoad (a.started (.frame .callDataLoad)).frame =
      .ok () { (a.started (.frame .callDataLoad)).frame with
        stack := ⟨BitVec.ofNat 256 (Bytes.wordAt a.frame.callData offset.toNat) :: rest⟩ } := by
    rw [FrameM.perform, EvmHarness.bind_eq_ok]
    refine ⟨offset, _, popped, ?_⟩
    rw [EvmHarness.get_bind, FrameM.push_apply]
    exact if_pos room
  have instructed := (instruction_of_starts env starts).trans
    (bind_of_eq_ok (onFrame_of_eq_ok loaded env) fun _ => pure Next.proceed)
  refine ⟨offset, _, rest, _, words, instructed, rfl, ?_⟩
  intro i inside
  rw [BitVec.toNat_ofNat, Nat.mod_eq_of_lt fits, Bytes.wordAt_eq]
  exact Bytes.digit_numberAt _ _ inside

/-- An instruction that copies what lies outside memory, once its stack and its fixed price are
checked, reads a source that endless zeros continue: if it completes, the range in memory holds the
bytes found there, nothing else in memory has changed, and memory has grown no further than to the
end of the range.  Whether it completes does not hang on where in the source it starts nor on where
the source ends, save that the copy of return data fails exactly where it reaches past the end.  A
word of call data is read in the same way, and always. -/
theorem copies_read_endless_source (env : Environment) (a : Active) :
    (∀ op request, a.Starts op → a.copyRequest? op = some request →
        (∀ next b, instruction env a = .ok next b →
          next = .proceed ∧ request.Met a.frame.memory b.frame.memory) ∧
        ((∃ next b, instruction env a = .ok next b) ↔
          a.CanCopy env op request.dest request.size ∧
            (op = .frame (.copy .returnData) →
              request.offset.toNat + request.size.toNat ≤ request.source.size)) ∧
        ((∃ b, instruction env a = .error .returnDataOverrun b) ↔
          op = .frame (.copy .returnData) ∧
            request.source.size < request.offset.toNat + request.size.toNat)) ∧
      (a.Starts (.frame .callDataLoad) → ∃ offset w rest b,
        a.frame.stack.words = offset :: rest ∧
          instruction env a = .ok .proceed b ∧ b.frame.stack.words = w :: rest ∧
          ∀ i < 32, w.toNat / 256 ^ (31 - i) % 256 =
            (Bytes.byteAt a.frame.callData (offset.toNat + i)).toNat) := by
  refine ⟨fun op request starts asked => ⟨?_, ?_, ?_⟩, callDataLoad_reads⟩
  · exact fun next b => met_of_instruction starts asked
  · exact completes_iff starts asked
  · exact overruns_iff starts asked

/-- A frame in front of some instruction, with three bytes of call data and some words on its
stack. -/
def reader (opcode : UInt8) (words : List Word) : Active where
  frame := { Frame.withGas 100 with
    code := ⟨#[opcode]⟩
    stack := ⟨words⟩
    callData := ⟨#[0xaa, 0xbb, 0xcc]⟩ }
  world := World.empty

theorem reader_reads_past_end :
    (∃ b, instruction default (reader 0x37 [5, 2, 3]) = .ok .proceed b ∧
        b.frame.memory.size = 32 ∧ ∀ i < 3, b.frame.memory.byteAt (5 + i) =
          Bytes.byteAt ⟨#[0xaa, 0xbb, 0xcc]⟩ (2 + i)) ∧
      (∃ b, instruction default (reader 0x3e [0, 1, 0]) = .error .returnDataOverrun b) ∧
      ∃ b w, instruction default (reader 0x35 [2]) = .ok .proceed b ∧
        b.frame.stack.words = [w] ∧ w.toNat / 256 ^ 31 % 256 = 0xcc := by
  have copying : (reader 0x37 [5, 2, 3]).Starts (.frame (.copy .callData)) :=
    ⟨rfl, by decide, by decide, by decide⟩
  have overrunning : (reader 0x3e [0, 1, 0]).Starts (.frame (.copy .returnData)) :=
    ⟨rfl, by decide, by decide, by decide⟩
  have loading : (reader 0x35 [2]).Starts (.frame .callDataLoad) :=
    ⟨rfl, by decide, by decide, by decide⟩
  refine ⟨?_, ?_, ?_⟩
  · obtain ⟨met, completes, -⟩ :=
      (copies_read_endless_source default (reader 0x37 [5, 2, 3])).1 _ _ copying rfl
    obtain ⟨next, b, h⟩ := completes.2
      ⟨⟨fun outside => absurd outside.2 (by decide), by decide, nofun⟩, nofun⟩
    obtain ⟨rfl, copied, -, size⟩ := met next b h
    exact ⟨b, h, size, copied⟩
  · obtain ⟨-, -, overruns⟩ :=
      (copies_read_endless_source default (reader 0x3e [0, 1, 0])).1 _ _ overrunning rfl
    exact overruns.2 ⟨rfl, by decide⟩
  · obtain ⟨offset, w, rest, b, words, h, loaded, bytes⟩ :=
      (copies_read_endless_source default (reader 0x35 [2])).2 loading
    obtain ⟨rfl, rfl⟩ := List.cons.inj words
    exact ⟨b, w, h, loaded, bytes 0 (by decide)⟩

end Action

end EvmHarness
