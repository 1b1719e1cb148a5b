import EvmHarness.Proofs.CopyRun
set_option autoImplicit false

/-!
# Gas for memory

Every range of memory that is asked for pays the difference between the price of the memory that
covers it and the price of the memory as it is.  These differences add up: whatever ranges are asked
for one after the other, together they pay for the way from the first memory to one that reaches
their peak (`regions_eq_ok_iff`).  Addressable ranges are so far below the largest counter that no
sum or product on the way to a price meets it.
-/

namespace EvmHarness

/-- Zeros behind zeros. -/
theorem Bytes.pushZeros_pushZeros (b : ByteArray) (m n : Nat) :
    pushZeros (pushZeros b m) n = pushZeros b (m + n) := by
  induction m generalizing b with
  | zero => rw [pushZeros, Nat.zero_add]
  | succ m ih => rw [pushZeros, ih, Nat.succ_add, pushZeros]

/-! ## Prices far below the largest counter -/

namespace Memory

/-- The words of the largest memory that instructions can make. -/
def wordLimit : Nat := 0x8000000

/-- Every number on the way to the price of some words is a counter, so the price is that of the
schedule. -/
structure PricedExactly (words : Nat) : Prop where
  square : words * words < 2 ^ 64
  linear : words * 3 < 2 ^ 64
  total : words * words / 512 + words * 3 < 2 ^ 64
  price : costOfWords words = words * words / 512 + words * 3

variable {m : Memory} {offset size words : Nat}

theorem pricedExactly (h : words ≤ wordLimit) : PricedExactly words := by
  have square : words * words ≤ wordLimit * wordLimit := Nat.mul_le_mul h h
  have far : wordLimit * wordLimit = 2 ^ 54 := rfl
  have largest : Saturating.limit + 1 = 2 ^ 64 := rfl
  simp only [wordLimit] at h
  have total : words * words / 512 + words * 3 < 2 ^ 64 := by omega
  refine ⟨by omega, by omega, total, ?_⟩
  rw [costOfWords, Saturating.mul_eq (by omega), Saturating.mul_eq (by omega),
    Saturating.add_eq (by omega)]

/-- More words cost no less. -/
theorem costOfWords_mono {fewer : Nat} (h : fewer ≤ words) (limit : words ≤ wordLimit) :
    costOfWords fewer ≤ costOfWords words := by
  rw [(pricedExactly limit).price, (pricedExactly (Nat.le_trans h limit)).price]
  have square : fewer * fewer ≤ words * words := Nat.mul_le_mul h h
  have quotient := Nat.div_le_div_right (c := 512) square
  omega

theorem words_le (h : size ≤ sizeLimit) : Gas.words size ≤ wordLimit := by
  simp only [sizeLimit] at h
  simp only [Gas.words, wordLimit]
  omega

theorem Fits.pricedExactly (hm : m.Fits) : PricedExactly (Gas.words m.size) :=
  Memory.pricedExactly (words_le hm.size)

/-! ## Growing up to an end -/

/-- A range that is not empty counts by its end only. -/
theorem wordsTo_end (offset size : Nat) : wordsTo offset size = wordsTo 0 (offset + size) := by
  simp only [wordsTo, Saturating.add, Nat.zero_add]

/-- The memory grown up to an end. -/
def grown (m : Memory) (stop : Nat) : Memory := m.extend 0 stop

theorem grown_zero (m : Memory) : m.grown 0 = m := rfl

theorem grown_bytes (m : Memory) (stop : Nat) :
    m.grown stop = ⟨Bytes.pushZeros m.bytes (wordsTo 0 stop * 32 - m.size)⟩ := by
  unfold grown extend
  split
  · rename_i nothing
    rw [nothing, show wordsTo 0 0 = 0 from rfl, Nat.zero_mul, Nat.zero_sub]
    rfl
  · rfl

theorem size_grown {stop : Nat} (h : stop ≤ sizeLimit) :
    (m.grown stop).size = max m.size (Gas.words stop * 32) := by
  have needed : wordsTo 0 stop = (0 + stop + 31) / 32 := wordsTo_eq (by omega)
  rw [grown_bytes, Memory.size, Bytes.size_pushZeros, needed, Gas.words]
  simp only [Memory.size]
  omega

/-- Growing twice is growing up to the farther end. -/
theorem grown_grown {stop further : Nat} (h : stop ≤ sizeLimit) (h' : further ≤ sizeLimit) :
    (m.grown stop).grown further = m.grown (max stop further) := by
  have first := size_grown (m := m) h
  have needed {n : Nat} (hn : n ≤ sizeLimit) : wordsTo 0 n = (0 + n + 31) / 32 :=
    wordsTo_eq (by omega)
  rw [grown_bytes (m.grown stop), first, grown_bytes m stop, grown_bytes, Bytes.pushZeros_pushZeros,
    needed h, needed h', needed (Nat.max_le.2 ⟨h, h'⟩), Gas.words]
  congr 2
  omega

theorem Fits.grown {stop : Nat} (hm : m.Fits) (h : stop ≤ sizeLimit) : (m.grown stop).Fits :=
  hm.extend (by omega)

theorem Fits.cost_mono {n : Memory} (hn : n.Fits) (h : m.size ≤ n.size) : m.cost ≤ n.cost :=
  costOfWords_mono (Nat.div_le_div_right (Nat.add_le_add_right h 31)) (words_le hn.size)

theorem Fits.cost_le_grown {stop : Nat} (hm : m.Fits) (h : stop ≤ sizeLimit) :
    m.cost ≤ (m.grown stop).cost :=
  (hm.grown h).cost_mono (size_le_extend m 0 stop)

/-- A memory of whole words stays as it is where it is long enough. -/
theorem Fits.grown_of_le {stop : Nat} (hm : m.Fits) (h : stop ≤ m.size) : m.grown stop = m :=
  hm.extend_of_covers (covers_iff.2 (.inr (by omega)))

end Memory

/-! ## Ranges that are asked for -/

/-- A range of memory that is asked for. -/
structure MemoryRange where
  offset : Word
  size : Word
  deriving DecidableEq, Repr

namespace MemoryRange

/-- Where the range ends.  An empty one asks for nothing, wherever it lies. -/
def stop (r : MemoryRange) : Nat := if r.size = 0 then 0 else r.offset.toNat + r.size.toNat

/-- The farthest end of some ranges. -/
def peak : List MemoryRange → Nat
  | [] => 0
  | r :: rest => max r.stop (peak rest)

/-- Every number on the way to the price of the range in a memory is a counter. -/
structure CountsExactly (r : MemoryRange) (m : Memory) : Prop where
  sum : r.offset.toNat + r.size.toNat + 31 < 2 ^ 64
  words : Memory.wordsTo r.offset.toNat r.size.toNat = Gas.words (r.offset.toNat + r.size.toNat)
  needed : Memory.PricedExactly (Gas.words (r.offset.toNat + r.size.toNat))
  present : Memory.PricedExactly (Gas.words m.size)

variable {r : MemoryRange} {m : Memory}

theorem stop_le_addressLimit_iff :
    r.stop ≤ Memory.addressLimit ↔ ¬ Active.Unaddressable r.offset r.size := by
  unfold stop
  split
  · rename_i empty
    exact iff_of_true (Nat.zero_le _) fun outside => outside.1 empty
  · rename_i nonempty
    rw [Active.Unaddressable, not_and, Nat.not_lt]
    exact ⟨fun near _ => near, fun near => near nonempty⟩

theorem extend_eq_grown (r : MemoryRange) (m : Memory) :
    m.extend r.offset.toNat r.size.toNat = m.grown r.stop := by
  unfold stop
  split
  · rename_i empty
    rw [empty]
    rfl
  · rename_i some
    have nonzero : r.size.toNat ≠ 0 := fun none => some (BitVec.eq_of_toNat_eq none)
    rw [Memory.grown_bytes, Memory.extend, if_neg nonzero, Memory.wordsTo_end]

/-- A range pays the difference between the prices of the memory after and before. -/
theorem expansionCost_eq (hm : m.Fits) (h : r.stop ≤ Memory.addressLimit) :
    m.expansionCost r.offset.toNat r.size.toNat = (m.grown r.stop).cost - m.cost := by
  have inside : r.stop ≤ Memory.sizeLimit := FrameM.le_sizeLimit h
  unfold Memory.expansionCost
  split
  · rename_i empty
    have none : r.stop = 0 := if_pos (BitVec.eq_of_toNat_eq empty)
    rw [none, Memory.grown_zero, Nat.sub_self]
  · rename_i some
    have nonempty : r.size ≠ 0 := fun none => some (by rw [none]; rfl)
    have needed : r.stop = r.offset.toNat + r.size.toNat := if_neg nonempty
    rw [Memory.wordsTo_eq (needed ▸ inside), ← needed]
    -- either the range asks for more words than there are, or it is free
    obtain more | fewer := Nat.le_total (Gas.words m.size) ((r.stop + 31) / 32)
    · have size := Memory.size_grown (m := m) inside
      have words : Gas.words (m.grown r.stop).size = (r.stop + 31) / 32 := by
        simp only [Gas.words] at more size ⊢
        omega
      simp only [Memory.cost, words]
    · have covered : r.stop ≤ m.size := by
        have whole := hm.words
        simp only [Gas.words] at fewer
        omega
      have cheaper : Memory.costOfWords ((r.stop + 31) / 32) ≤ m.cost :=
        Memory.costOfWords_mono fewer (Memory.words_le hm.size)
      rw [hm.grown_of_le covered]
      omega

theorem countsExactly (hm : m.Fits) (h : r.stop ≤ Memory.addressLimit) (nonempty : r.size ≠ 0) :
    r.CountsExactly m := by
  have needed : r.stop = r.offset.toNat + r.size.toNat := if_neg nonempty
  have inside : r.stop ≤ Memory.sizeLimit := FrameM.le_sizeLimit h
  have far : Memory.sizeLimit + 31 < 2 ^ 64 := by decide
  rw [needed] at inside
  exact ⟨by omega, Memory.wordsTo_eq inside, Memory.pricedExactly (Memory.words_le inside),
    hm.pricedExactly⟩

end MemoryRange

/-! ## One range after the other -/

namespace FrameM

open MemoryRange (peak)

/-- Makes ranges of memory usable, one after the other. -/
def regions : List MemoryRange → FrameM Unit
  | [] => pure ()
  | r :: rest => do
    let _ ← region r.offset r.size
    regions rest

/-- The frame with its memory grown up to an end and paid for. -/
def grownTo (f : Frame) (stop : Nat) : Frame :=
  { f with
    gas := f.gas - ((f.memory.grown stop).cost - f.memory.cost)
    memory := f.memory.grown stop }

variable {f g : Frame} {r : MemoryRange} {ranges others : List MemoryRange}

/-- A range is made usable where its end can be addressed and growing up to there is paid for. -/
theorem region_eq_ok_iff_stop (fits : f.memory.Fits) {span : Nat × Nat} :
    region r.offset r.size f = .ok span g ↔
      r.stop ≤ Memory.addressLimit ∧ (f.memory.grown r.stop).cost - f.memory.cost ≤ f.gas ∧
        span = usableRange r.offset r.size ∧ g = grownTo f r.stop := by
  rw [region_eq_ok_iff, ← MemoryRange.stop_le_addressLimit_iff, MemoryRange.extend_eq_grown]
  constructor
  · rintro ⟨addressable, paid, rfl, rfl⟩
    rw [MemoryRange.expansionCost_eq fits addressable] at paid ⊢
    exact ⟨addressable, paid, rfl, rfl⟩
  · rintro ⟨addressable, paid, rfl, rfl⟩
    rw [MemoryRange.expansionCost_eq fits addressable]
    exact ⟨addressable, paid, rfl, rfl⟩

theorem grownTo_grownTo (fits : f.memory.Fits) {stop further : Nat} (h : stop ≤ Memory.sizeLimit)
    (h' : further ≤ Memory.sizeLimit) :
    grownTo (grownTo f stop) further = grownTo f (max stop further) := by
  have first := fits.cost_le_grown h
  have second := (fits.grown h).cost_le_grown h'
  unfold grownTo
  dsimp only
  rw [Memory.grown_grown h h'] at second ⊢
  congr 1
  omega

/-- Whatever ranges are asked for, and in whatever order, they are made usable where their peak can
be addressed and growing up to it is paid for, and then just that has been done. -/
theorem regions_eq_ok_iff (fits : f.memory.Fits) :
    regions ranges f = .ok () g ↔
      peak ranges ≤ Memory.addressLimit ∧
        (f.memory.grown (peak ranges)).cost - f.memory.cost ≤ f.gas ∧
        g = grownTo f (peak ranges) := by
  induction ranges generalizing f with
  | nil =>
      have free : f.memory.cost - f.memory.cost = 0 := Nat.sub_self _
      have same : grownTo f 0 = f := by
        rw [grownTo, Memory.grown_zero, free, Nat.sub_zero]
      have done : regions [] f = .ok () g ↔ g = f := by
        show EStateM.Result.ok () f = .ok () g ↔ _
        simp [eq_comm]
      rw [done, peak, same, Memory.grown_zero, free]
      simp
  | cons r ranges ih =>
      have both : max r.stop (peak ranges) ≤ Memory.addressLimit ↔
          r.stop ≤ Memory.addressLimit ∧ peak ranges ≤ Memory.addressLimit := Nat.max_le
      rw [regions, bind_eq_ok, peak, both]
      constructor
      · rintro ⟨span, h, made, rest⟩
        obtain ⟨near, paid, -, rfl⟩ := (region_eq_ok_iff_stop fits).1 made
        have inside := le_sizeLimit near
        obtain ⟨far, paidToo, rfl⟩ := (ih (fits.grown inside)).1 rest
        have first := fits.cost_le_grown inside
        have second := (fits.grown inside).cost_le_grown (le_sizeLimit far)
        simp only [grownTo] at paidToo
        rw [Memory.grown_grown inside (le_sizeLimit far)] at second paidToo
        exact ⟨⟨near, far⟩, by omega, grownTo_grownTo fits inside (le_sizeLimit far)⟩
      · rintro ⟨⟨near, far⟩, paid, rfl⟩
        have inside := le_sizeLimit near
        have first := fits.cost_le_grown inside
        have second := (fits.grown inside).cost_le_grown (le_sizeLimit far)
        rw [Memory.grown_grown inside (le_sizeLimit far)] at second
        refine ⟨_, _, (region_eq_ok_iff_stop fits).2 ⟨near, by omega, rfl, rfl⟩, ?_⟩
        refine (ih (fits.grown inside)).2 ⟨far, ?_, ?_⟩
        · simp only [grownTo]
          rw [Memory.grown_grown inside (le_sizeLimit far)]
          omega
        · exact (grownTo_grownTo fits inside (le_sizeLimit far)).symm

theorem regions_append (ranges others : List MemoryRange) :
    regions (ranges ++ others) = regions ranges >>= fun _ => regions others := by
  induction ranges with
  | nil => rw [List.nil_append, regions, pure_bind]
  | cons r ranges ih => simp only [List.cons_append, regions, ih, bind_assoc]

/-- What asking for ranges one after the other has come to: all of it together has paid for the way
between the two memories, the second one reaches the peak of the ranges and no further, and on the
way no range that was there already has cost anything and no number has met the largest counter. -/
structure PaidByPeak (f : Frame) (ranges : List MemoryRange) (g : Frame) : Prop where
  grows : f.memory.cost ≤ g.memory.cost
  paid : f.gas = g.gas + (g.memory.cost - f.memory.cost)
  size : g.memory.size = max f.memory.size (Gas.words (peak ranges) * 32)
  priced : Memory.PricedExactly (Gas.words f.memory.size) ∧
    Memory.PricedExactly (Gas.words g.memory.size)
  midway : ∀ earlier r later, ranges = earlier ++ r :: later → ∃ a span b,
    regions earlier f = .ok () a ∧ region r.offset r.size a = .ok span b ∧
      regions later b = .ok () g ∧
      (r.stop ≤ a.memory.size → b = a) ∧ (r.size ≠ 0 → r.CountsExactly a.memory)

theorem grownTo_of_le (fits : f.memory.Fits) {stop : Nat} (h : stop ≤ f.memory.size) :
    grownTo f stop = f := by
  rw [grownTo, fits.grown_of_le h, Nat.sub_self, Nat.sub_zero]

/-- The states around the asking for one range in the midst of others. -/
theorem exists_midway (fits : f.memory.Fits) {earlier later : List MemoryRange}
    (made : regions (earlier ++ r :: later) f = .ok () g) :
    ∃ a span b, regions earlier f = .ok () a ∧ region r.offset r.size a = .ok span b ∧
      regions later b = .ok () g ∧
      (r.stop ≤ a.memory.size → b = a) ∧ (r.size ≠ 0 → r.CountsExactly a.memory) := by
  rw [regions_append, bind_eq_ok] at made
  obtain ⟨_, a, before, made⟩ := made
  obtain ⟨span, b, asked, after⟩ := bind_eq_ok.1 made
  obtain ⟨near, -, rfl⟩ := (regions_eq_ok_iff fits).1 before
  have fitsThen : (grownTo f (peak earlier)).memory.Fits := fits.grown (le_sizeLimit near)
  obtain ⟨addressable, -, -, rfl⟩ := (region_eq_ok_iff_stop fitsThen).1 asked
  exact ⟨_, span, _, before, asked, after, grownTo_of_le fitsThen,
    MemoryRange.countsExactly fitsThen addressable⟩

/-- Ranges of memory that are asked for one after the other pay, all together, the difference
between the price of the memory that they leave and the price of the one that they find.  That
memory reaches their peak, so nothing but the peak decides what they pay and whether they can: other
ranges with the same peak, in any order, any number and overlapping in any way, leave the same
frame. -/
theorem memory_gas_by_peak (fits : f.memory.Fits) (ranges : List MemoryRange) :
    (∀ g, regions ranges f = .ok () g → PaidByPeak f ranges g) ∧
      ∀ others, peak others = peak ranges →
        ∀ g, regions others f = .ok () g ↔ regions ranges f = .ok () g := by
  constructor
  · intro g made
    obtain ⟨near, paid, rfl⟩ := (regions_eq_ok_iff fits).1 made
    have inside := le_sizeLimit near
    refine ⟨fits.cost_le_grown inside, ?_, Memory.size_grown inside, ?_, ?_⟩
    · exact (Nat.sub_add_cancel paid).symm
    · exact ⟨fits.pricedExactly, (fits.grown inside).pricedExactly⟩
    · rintro earlier r later rfl
      exact exists_midway fits made
  · intro others same g
    rw [regions_eq_ok_iff fits, regions_eq_ok_iff fits, same]

/-- A frame with one word of memory. -/
def oneWord : Frame := { Frame.withGas 100 with memory := ⟨Bytes.ofWord 7⟩ }

/-- Two ranges that overlap, one that is empty and far away, and one behind them. -/
def scattered : List MemoryRange := [⟨64, 10⟩, ⟨BitVec.allOnes 256, 0⟩, ⟨40, 32⟩, ⟨0, 33⟩]

/-- Two more words are paid for once, from the front as well as from the back. -/
theorem scattered_paid_by_peak :
    oneWord.memory.Fits ∧ ∃ g, regions scattered oneWord = .ok () g ∧
      g.gas = 94 ∧ g.memory.size = 96 ∧ regions scattered.reverse oneWord = .ok () g := by
  have fits : oneWord.memory.Fits := ⟨by decide, by decide⟩
  have made : regions scattered oneWord = .ok () (grownTo oneWord 74) :=
    (regions_eq_ok_iff fits).2 ⟨by decide, by decide, rfl⟩
  obtain ⟨pays, same⟩ := memory_gas_by_peak fits scattered
  have paid := pays _ made
  refine ⟨fits, _, made, ?_, paid.size, (same scattered.reverse (by decide) _).2 made⟩
  have gone := paid.paid
  have price : (grownTo oneWord 74).memory.cost - oneWord.memory.cost = 6 := by decide
  have given : oneWord.gas = 100 := rfl
  rw [price, given] at gone
  omega

end FrameM

end EvmHarness
