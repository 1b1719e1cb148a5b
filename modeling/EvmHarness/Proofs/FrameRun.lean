import EvmHarness.Operation.Perform
import EvmHarness.Proofs.Actions
import EvmHarness.Proofs.MemoryFits
set_option autoImplicit false

/-!
# How a frame runs on

Whatever an instruction does to its frame, the frame stays the same execution: it runs the same
code on behalf of the same account, gas is only ever spent, and stack and memory keep to their
limits.  `Frame.Later` says so, and every action on a frame keeps it.  Most actions do not move the
program counter, and the rest of them move it to a jump destination: those keep `Frame.Runs`.
-/

namespace EvmHarness

namespace Frame

/-- The stack and the memory keep to their limits. -/
structure Fits (f : Frame) : Prop where
  stack : f.stack.size ≤ Stack.limit
  memory : f.memory.Fits

/-- The second frame is a later state of the execution that the first one is a state of: only the
program counter, the stack, the memory, the gas and the return data may differ, no gas has come in,
no limit is newly exceeded and no memory is given up. -/
structure Later (f g : Frame) : Prop where
  same : g = { f with
    pc := g.pc, stack := g.stack, memory := g.memory, gas := g.gas, returnData := g.returnData }
  gas : g.gas ≤ f.gas
  fits : f.Fits → g.Fits
  grown : f.memory.size ≤ g.memory.size

namespace Later

variable {f g h : Frame}

theorem refl (f : Frame) : f.Later f := ⟨rfl, Nat.le_refl _, id, Nat.le_refl _⟩

theorem trans (hfg : f.Later g) (hgh : g.Later h) : f.Later h := by
  refine ⟨?_, Nat.le_trans hgh.gas hfg.gas, hgh.fits ∘ hfg.fits, Nat.le_trans hfg.grown hgh.grown⟩
  rw [hgh.same, hfg.same]

theorem account (hl : f.Later g) : g.account = f.account := by rw [hl.same]

theorem isStatic (hl : f.Later g) : g.isStatic = f.isStatic := by rw [hl.same]

theorem code (hl : f.Later g) : g.code = f.code := by rw [hl.same]

theorem codeAccount (hl : f.Later g) : g.codeAccount = f.codeAccount := by rw [hl.same]

theorem jumpDests (hl : f.Later g) : g.jumpDests = f.jumpDests := by rw [hl.same]

/-- A move of the program counter. -/
theorem move (f : Frame) (pc : Nat) : f.Later { f with pc := pc } :=
  ⟨rfl, Nat.le_refl _, fun hf => ⟨hf.stack, hf.memory⟩, Nat.le_refl _⟩

/-- A move of the program counter for a price. -/
theorem movePaying (f : Frame) (pc : Nat) {gas : Nat} (h : gas ≤ f.gas) :
    f.Later { f with pc := pc, gas := gas } :=
  ⟨rfl, h, fun hf => ⟨hf.stack, hf.memory⟩, Nat.le_refl _⟩

end Later

/-- The second frame is a later state, and it is where the first one is or at a jump destination. -/
structure Runs (f g : Frame) : Prop extends f.Later g where
  counter : g.pc = f.pc ∨ f.jumpDests.contains g.pc = true

namespace Runs

variable {f g h : Frame}

theorem refl (f : Frame) : f.Runs f := ⟨.refl f, .inl rfl⟩

theorem trans (hfg : f.Runs g) (hgh : g.Runs h) : f.Runs h := by
  refine ⟨hfg.toLater.trans hgh.toLater, ?_⟩
  obtain hpc | hjump := hgh.counter
  · rw [hpc]
    exact hfg.counter
  · rw [hfg.jumpDests] at hjump
    exact .inr hjump

instance : Std.Refl Runs := ⟨refl⟩

instance : IsTrans Frame Runs := ⟨fun _ _ _ => trans⟩

/-- The stack may change within its limit, and gas that has been set aside may come back. -/
theorem withStackAndGas (h : f.Runs g) {stack : Stack} {gas : Nat} (hgas : gas ≤ f.gas)
    (fits : g.stack.size ≤ Stack.limit → stack.size ≤ Stack.limit) :
    f.Runs { g with stack := stack, gas := gas } := by
  refine ⟨⟨?_, hgas, fun hf => ?_, h.grown⟩, h.counter⟩
  · rw [h.same]
  · exact ⟨fits (h.fits hf).stack, (h.fits hf).memory⟩

theorem stack (f : Frame) {stack : Stack}
    (fits : f.stack.size ≤ Stack.limit → stack.size ≤ Stack.limit) :
    f.Runs { f with stack := stack } := (refl f).withStackAndGas (Nat.le_refl _) fits

end Runs

/-- The second frame is a later state with the same stack. -/
structure Pays (f g : Frame) : Prop extends f.Runs g where
  stack : g.stack = f.stack

namespace Pays

variable {f g h : Frame}

theorem refl (f : Frame) : f.Pays f := ⟨.refl f, rfl⟩

theorem trans (hfg : f.Pays g) (hgh : g.Pays h) : f.Pays h :=
  ⟨hfg.toRuns.trans hgh.toRuns, hgh.stack.trans hfg.stack⟩

instance : IsTrans Frame Pays := ⟨fun _ _ _ => trans⟩

theorem spend (f : Frame) {gas : Nat} (h : gas ≤ f.gas) : f.Pays { f with gas := gas } :=
  ⟨(Runs.refl f).withStackAndGas h id, rfl⟩

/-- Memory that has grown within its limits. -/
theorem memory (f : Frame) {memory : Memory} (fits : f.memory.Fits → memory.Fits)
    (grown : f.memory.size ≤ memory.size) : f.Pays { f with memory := memory } :=
  ⟨⟨⟨rfl, Nat.le_refl _, fun hf => ⟨hf.stack, fits hf.memory⟩, grown⟩, .inl rfl⟩, rfl⟩

theorem returnData (f : Frame) (data : ByteArray) : f.Pays { f with returnData := data } :=
  ⟨⟨⟨rfl, Nat.le_refl _, fun hf => ⟨hf.stack, hf.memory⟩, Nat.le_refl _⟩, .inl rfl⟩, rfl⟩

end Pays

end Frame

theorem Keeps.runs {α : Type} {act : FrameM α} (h : Keeps Frame.Pays act) :
    Keeps Frame.Runs act := h.mono fun _ _ => Frame.Pays.toRuns

namespace FrameM

open EvmHarness.Frame (Later Runs Pays)

/-! ## The parts of instructions -/

theorem charge_apply (amount : Nat) (f : Frame) :
    charge amount f =
      if amount ≤ f.gas then .ok () { f with gas := f.gas - amount }
      else .error (.outOfGas f.gas amount) f := by
  show (if amount ≤ f.gas then modify fun g => { g with gas := f.gas - amount }
    else throw (.outOfGas f.gas amount) : FrameM Unit) f = _
  split <;> rfl

theorem pop_apply (f : Frame) :
    pop f =
      match f.stack.words with
      | [] => .error .stackUnderrun f
      | w :: rest => .ok w { f with stack := ⟨rest⟩ } := by
  rcases f with ⟨_, _, _, _, _, ⟨words⟩, _, _, _, _, _, _, _⟩
  cases words with
  | nil => rfl
  | cons w rest => rfl

theorem push_apply (w : Word) (f : Frame) :
    push w f =
      if f.stack.size < Stack.limit then .ok () { f with stack := ⟨w :: f.stack.words⟩ }
      else .error .stackLimitExceeded f := by
  unfold push
  rw [get_bind, Stack.push]
  by_cases h : f.stack.size < Stack.limit
  · rw [if_pos h, if_pos h]
    rfl
  · rw [if_neg h, if_neg h]
    rfl

theorem charge_eq_ok {amount : Nat} {f g : Frame} {u : Unit} :
    charge amount f = .ok u g ↔ amount ≤ f.gas ∧ g = { f with gas := f.gas - amount } := by
  rw [charge_apply]
  split
  · rename_i h
    simp [h, eq_comm]
  · rename_i h
    simp [h]

theorem pop_eq_ok {f g : Frame} {w : Word} (h : pop f = .ok w g) :
    ∃ rest, f.stack.words = w :: rest ∧ g = { f with stack := ⟨rest⟩ } := by
  rw [pop_apply] at h
  cases hw : f.stack.words with
  | nil =>
      rw [hw] at h
      exact absurd h (by simp)
  | cons top rest =>
      rw [hw] at h
      obtain ⟨rfl, rfl⟩ := EStateM.Result.ok.inj h
      exact ⟨rest, rfl, rfl⟩

theorem pays_charge (amount : Nat) : Keeps Pays (charge amount) := by
  intro f
  rw [charge_apply]
  split
  · exact .spend f (Nat.sub_le _ _)
  · exact .refl f

theorem region_apply (offset size : Word) (f : Frame) :
    region offset size f =
      if size = 0 then .ok (0, 0) f
      else if offset.toNat + size.toNat ≤ Memory.addressLimit then
        let cost := f.memory.expansionCost offset.toNat size.toNat
        if cost ≤ f.gas then
          .ok (offset.toNat, size.toNat)
            { f with gas := f.gas - cost, memory := f.memory.extend offset.toNat size.toNat }
        else .error (.outOfGas f.gas cost) f
      else .error .memoryOverflow f := by
  by_cases hsize : size = 0
  · rw [if_pos hsize]
    unfold region
    rw [if_pos hsize]
    rfl
  · rw [if_neg hsize]
    unfold region
    rw [if_neg hsize]
    dsimp only
    by_cases hend : offset.toNat + size.toNat ≤ Memory.addressLimit
    · rw [if_pos hend, if_pos hend, get_bind]
      have charged := charge_apply (f.memory.expansionCost offset.toNat size.toNat) f
      by_cases hcost : f.memory.expansionCost offset.toNat size.toNat ≤ f.gas
      · rw [if_pos hcost] at charged ⊢
        exact bind_eq_ok.2 ⟨(), _, charged, rfl⟩
      · rw [if_neg hcost] at charged ⊢
        show EStateM.bind _ _ f = _
        rw [EStateM.bind, charged]
    · rw [if_neg hend, if_neg hend]
      rfl

/-- A range that can be addressed can be covered. -/
theorem le_sizeLimit {n : Nat} (h : n ≤ Memory.addressLimit) : n ≤ Memory.sizeLimit :=
  Nat.le_trans h (by decide)

theorem pays_region (offset size : Word) : Keeps Pays (region offset size) := by
  intro f
  rw [region_apply]
  split
  · exact .refl f
  · split
    · rename_i hend
      dsimp only
      split
      · refine (Pays.spend f (Nat.sub_le _ _)).trans (.memory _ (fun hm => ?_) ?_)
        · exact hm.extend (le_sizeLimit hend)
        · exact Memory.size_le_extend _ _ _
      · exact .refl f
    · exact .refl f

/-- A region is a range of the size asked for that can be addressed, and the memory covers it. -/
theorem region_eq_ok {offset size : Word} {f g : Frame} {range : Nat × Nat}
    (h : region offset size f = .ok range g) :
    range.2 = size.toNat ∧ range.1 + range.2 ≤ Memory.addressLimit ∧
      g.memory.covers range.1 range.2 = true := by
  rw [region_apply] at h
  split at h
  · rename_i hsize
    obtain ⟨rfl, rfl⟩ := EStateM.Result.ok.inj h
    rw [hsize]
    exact ⟨rfl, Nat.zero_le _, rfl⟩
  · split at h
    · rename_i hend
      dsimp only at h
      split at h
      · obtain ⟨rfl, rfl⟩ := EStateM.Result.ok.inj h
        exact ⟨rfl, hend, Memory.covers_extend _ (le_sizeLimit hend)⟩
      · exact absurd h nofun
    · exact absurd h nofun

/-- A region lies where it was asked for, unless it is empty. -/
theorem region_place {offset size : Word} {f g : Frame} {range : Nat × Nat}
    (h : region offset size f = .ok range g) : range.2 = 0 ∨ range.1 = offset.toNat := by
  rw [region_apply] at h
  split at h
  · obtain ⟨rfl, _⟩ := EStateM.Result.ok.inj h
    exact .inl rfl
  · split at h
    · dsimp only at h
      split at h
      · obtain ⟨rfl, _⟩ := EStateM.Result.ok.inj h
        exact .inr rfl
      · exact absurd h nofun
    · exact absurd h nofun

/-- Writing an addressable range is covered by memory that instructions can make. -/
theorem pays_store {offset size : Nat} (h : offset + size ≤ Memory.sizeLimit) (value : ByteArray) :
    Keeps Pays (store offset size value) := by
  intro f
  refine .memory f (fun hm => hm.store value h) ?_
  rw [Memory.size_store value (Memory.covers_extend f.memory h)]
  exact Memory.size_le_extend _ _ _

/-- Writing a range that the memory covers changes neither its size nor what comes of the rest of
the frame. -/
theorem store_pays (f : Frame) {offset size : Nat} (h : f.memory.covers offset size = true)
    (value : ByteArray) : f.Pays (stateAfter (store offset size value f)) := by
  have grown := Memory.size_le_extend f.memory offset size
  refine .memory f (fun hm => hm.store_of_covers value h) ?_
  rw [Memory.size_store value (Memory.covers_of_le h grown)]
  exact grown

theorem keeps_pop : Keeps Runs pop := by
  intro f
  rw [pop_apply]
  cases hw : f.stack.words with
  | nil => exact .refl f
  | cons w rest =>
      refine .stack f fun hf => Nat.le_of_succ_le ?_
      have hsize : f.stack.size = rest.length + 1 := congrArg List.length hw
      rwa [hsize] at hf

theorem keeps_push (w : Word) : Keeps Runs (push w) := by
  intro f
  rw [push_apply]
  split
  · rename_i room
    exact .stack f fun _ => room
  · exact .refl f

theorem keeps_popMany (n : Nat) : Keeps Runs (popMany n) := by
  intro f
  unfold popMany
  rw [get_bind]
  cases h : f.stack.popMany n with
  | error fault => exact .refl f
  | ok popped =>
      unfold Stack.popMany at h
      split at h
      · obtain rfl := Except.ok.inj h
        refine .stack f fun hf => Nat.le_trans ?_ hf
        exact Nat.le_trans (Nat.le_of_eq List.length_drop) (Nat.sub_le _ _)
      · exact absurd h nofun

theorem keeps_updateStack {change : Stack → Except Fault Stack}
    (fits : ∀ {s t : Stack}, change s = .ok t → s.size ≤ Stack.limit → t.size ≤ Stack.limit) :
    Keeps Runs (updateStack change) := by
  intro f
  unfold updateStack
  rw [get_bind]
  cases h : change f.stack with
  | ok stack => exact .stack f (fits h)
  | error fault => exact .refl f

theorem keeps_popOutput : Keeps Runs popOutput := by
  refine keeps_pop.bind fun offset => keeps_pop.bind fun size => ?_
  exact (pays_region offset size).runs.bind fun _ => Keeps.get.bind fun _ => .pure _

theorem keeps_copyIn (source : ByteArray) (dest offset size : Word) :
    Keeps Runs (copyIn source dest offset size) := by
  refine (pays_region dest size).runs.bind_of_eq_ok fun {_ range g} h => ?_
  obtain ⟨_, hend, _⟩ := region_eq_ok h
  have writes : Keeps Pays (do
      charge (Gas.copiedWord * Gas.words range.2)
      store range.1 range.2 (Bytes.slice source offset.toNat range.2) : FrameM Unit) :=
    (pays_charge _).bind fun _ => pays_store (le_sizeLimit hend) _
  exact writes.runs g

/-- A value of a fixed size written where the memory has just been made usable. -/
theorem keeps_storeAt (offset : Word) {size : Word} {n : Nat} (hn : size.toNat = n)
    (value : ByteArray) :
    Keeps Runs (do let (offset, _) ← region offset size; store offset n value : FrameM Unit) := by
  refine (pays_region offset size).runs.bind_of_eq_ok fun {_ range g} h => ?_
  obtain ⟨hsize, hend, _⟩ := region_eq_ok h
  rw [hsize, hn] at hend
  exact (pays_store (le_sizeLimit hend) value).runs g

theorem keeps_jumpTo (dest : Word) : Keeps Runs (jumpTo dest) := by
  intro f
  unfold jumpTo
  rw [get_bind]
  split
  · rename_i hdest
    exact ⟨.move f _, .inr hdest⟩
  · exact .refl f

theorem keeps_copyFrom (source : CopySource) : Keeps Runs (copyFrom source) := by
  refine keeps_pop.bind fun dest => keeps_pop.bind fun offset => keeps_pop.bind fun size => ?_
  refine Keeps.get.bind fun f => .ite ?_ (keeps_copyIn _ _ _ _)
  exact (Keeps.throw _).bind fun _ => keeps_copyIn _ _ _ _

/-- The two regions of a copy within memory are covered until the copy is made. -/
theorem copyRegions_eq_ok {dest offset size : Word} {f g h : Frame} {source target : Nat × Nat}
    (hf : region offset size f = .ok source g)
    (hg : region dest (BitVec.ofNat 256 source.2) g = .ok target h) :
    h.memory.covers source.1 source.2 = true ∧ h.memory.covers target.1 source.2 = true := by
  obtain ⟨_, hend, hsource⟩ := region_eq_ok hf
  obtain ⟨hsize, _, htarget⟩ := region_eq_ok hg
  have small : source.2 < 2 ^ 256 := Nat.lt_of_le_of_lt (Nat.le_trans (Nat.le_add_left _ _) hend)
    (by decide)
  rw [BitVec.toNat_ofNat, Nat.mod_eq_of_lt small] at hsize
  rw [hsize] at htarget
  exact ⟨Memory.covers_of_le hsource ((pays_region _ _).of_eq_ok hg).grown, htarget⟩

theorem keeps_copyWithin : Keeps Runs copyWithin := by
  refine keeps_pop.bind fun dest => keeps_pop.bind fun offset => keeps_pop.bind fun size => ?_
  refine (pays_region _ _).runs.bind_of_eq_ok fun {_ source g} hf => ?_
  refine Keeps.bind_at (pays_region dest _ g).toRuns fun {target h} hg => ?_
  refine Keeps.bind_at (pays_charge _ h).toRuns fun hc => ?_
  obtain ⟨_, rfl⟩ := charge_eq_ok.1 hc
  obtain ⟨_, covered⟩ := copyRegions_eq_ok hf hg
  have size : (h.memory.copyWithin source.1 target.1 source.2).size = h.memory.size :=
    Memory.size_copyWithin covered
  exact Pays.toRuns (.memory _ (fun hm => hm.of_size size) (Nat.le_of_eq size.symm))

theorem prepare_apply (info : OperationInfo) (f : Frame) :
    prepare info f =
      if f.stack.size < info.inputs then .error .stackUnderrun f
      else if Stack.limit < f.stack.size - info.inputs + info.outputs then
        .error .stackLimitExceeded f
      else charge info.price f := by
  unfold prepare
  rw [get_bind]
  split
  · rfl
  · split <;> rfl

/-- An operation starts only with its inputs on the stack, room for its outputs and its fixed
price paid. -/
theorem prepare_eq_ok {info : OperationInfo} {f g : Frame} {u : Unit}
    (h : prepare info f = .ok u g) :
    info.inputs ≤ f.stack.size ∧ f.stack.size - info.inputs + info.outputs ≤ Stack.limit ∧
      info.price ≤ f.gas ∧ g = { f with gas := f.gas - info.price } := by
  rw [prepare_apply] at h
  split at h
  · exact absurd h nofun
  · rename_i inputs
    split at h
    · exact absurd h nofun
    · rename_i room
      obtain ⟨price, hg⟩ := charge_eq_ok.1 h
      exact ⟨Nat.le_of_not_lt inputs, Nat.le_of_not_lt room, price, hg⟩

/-! ## The operations on the frame -/

/-- Every operation but pushing, whose bytes come behind it, runs the frame on where it is. -/
theorem keeps_perform (env : Environment) {op : FrameOp} (h : ∀ size, op ≠ .push size) :
    Keeps Runs (perform env op) := by
  cases op with
  | unary f => exact keeps_pop.bind fun _ => keeps_push _
  | binary f => exact keeps_pop.bind fun _ => keeps_pop.bind fun _ => keeps_push _
  | ternary f =>
      exact keeps_pop.bind fun _ => keeps_pop.bind fun _ => keeps_pop.bind fun _ => keeps_push _
  | exp =>
      refine keeps_pop.bind fun _ => keeps_pop.bind fun _ => ?_
      exact (pays_charge _).runs.bind fun _ => keeps_push _
  | keccak =>
      refine keeps_pop.bind fun _ => keeps_pop.bind fun _ => (pays_region _ _).runs.bind fun _ => ?_
      exact (pays_charge _).runs.bind fun _ => Keeps.get.bind fun _ => keeps_push _
  | read r => exact Keeps.get.bind fun _ => keeps_push _
  | callDataLoad => exact keeps_pop.bind fun _ => Keeps.get.bind fun _ => keeps_push _
  | blockHash => exact keeps_pop.bind fun _ => keeps_push _
  | blobHash => exact keeps_pop.bind fun _ => keeps_push _
  | copy source => exact keeps_copyFrom source
  | pop => exact keeps_pop.bind fun _ => .pure _
  | loadWord =>
      refine keeps_pop.bind fun _ => (pays_region _ _).runs.bind fun _ => ?_
      exact Keeps.get.bind fun _ => keeps_push _
  | storeWord =>
      refine keeps_pop.bind fun _ => keeps_pop.bind fun value => ?_
      exact keeps_storeAt _ rfl (Bytes.ofWord value.toNat)
  | storeByte =>
      refine keeps_pop.bind fun _ => keeps_pop.bind fun value => ?_
      exact keeps_storeAt _ rfl (Bytes.ofNumber 1 value.toNat)
  | copyMemory => exact keeps_copyWithin
  | jump => exact keeps_pop.bind fun dest => keeps_jumpTo dest
  | jumpIf =>
      exact keeps_pop.bind fun dest => keeps_pop.bind fun _ => .ite (keeps_jumpTo dest) (.pure _)
  | jumpDest => exact .pure _
  | push size => exact absurd rfl (h size)
  | dup depth =>
      show Keeps Runs (updateStack (·.dup (depth + 1)))
      refine keeps_updateStack fun h _ => ?_
      obtain ⟨room, hsize⟩ := Stack.size_of_dup h
      rw [hsize]
      exact room
  | swap depth =>
      show Keeps Runs (updateStack (·.swap (depth + 1)))
      refine keeps_updateStack fun h fits => ?_
      rw [Stack.size_of_swap h]
      exact fits

/-- An operation runs the frame on from behind the bytes that belong to it. -/
theorem runs_perform (env : Environment) (op : FrameOp) (f : Frame) :
    Runs { f with pc := f.pc + (Operation.frame op).immediateSize }
      (stateAfter (perform env op f)) := by
  cases op with
  | push size =>
      rw [perform, get_bind, set_bind]
      exact keeps_push _ _
  | _ => exact keeps_perform env (by simp) f

end FrameM

end EvmHarness
