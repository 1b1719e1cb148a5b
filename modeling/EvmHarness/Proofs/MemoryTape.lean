import EvmHarness.Proofs.MemoryView
set_option autoImplicit false

/-!
# Memory acts as an endless tape

Whatever is done with a memory is done with the endless tape of its bytes: growing leaves the tape
alone, a write and a copy change their range and nothing else, and what is read is what stands on
the tape, past the end of the memory as well.  So nobody who uses a memory can tell how long it is,
but by its price; that length is a whole number of words and never shrinks (`performAll_refines`).
-/

namespace EvmHarness

namespace Bytes

/-- A slice as the bytes of the endless tape in its range. -/
theorem toList_slice (b : ByteArray) (offset size : Nat) :
    (slice b offset size).data.toList = (List.range size).map fun j => byteAt b (offset + j) := by
  have length : (slice b offset size).data.toList.length = size := by
    rw [Array.length_toList]
    exact size_slice b offset size
  refine List.ext_getElem (by simp [length]) fun j hj _ => ?_
  rw [length] at hj
  have inside : j < (slice b offset size).size := by rwa [size_slice]
  rw [List.getElem_map, List.getElem_range, ← byteAt_slice b offset hj, byteAt_of_lt inside]
  rfl

end Bytes

/-! ## Operations -/

/-- An operation on a memory. -/
inductive MemoryOp where
  | extend (offset size : Nat)
  | store (offset size : Nat) (value : ByteArray)
  | read (offset size : Nat)
  | copy (source dest size : Nat)
  deriving DecidableEq

namespace MemoryOp

/-- The ranges of the operation are such that an instruction may address them. -/
def Addressable : MemoryOp → Prop
  | extend offset size | store offset size _ | read offset size =>
    offset + size ≤ Memory.addressLimit
  | copy source dest size =>
    source + size ≤ Memory.addressLimit ∧ dest + size ≤ Memory.addressLimit

/-- The memory that covers what the operation expects to be covered: both ranges of a copy. -/
def cover (m : Memory) : MemoryOp → Memory
  | copy source dest size => (m.extend source size).extend dest size
  | _ => m

/-- The bytes that the operation reads and the memory after it.  Nothing where there is no answer:
a memory cannot grow beyond every size, and a copy needs both of its ranges. -/
def perform (m : Memory) : MemoryOp → Option (List UInt8 × Memory)
  | extend offset size =>
    if Memory.canCover offset size then some ([], m.extend offset size) else none
  | store offset size value =>
    if Memory.canCover offset size then some ([], m.store offset size value) else none
  | read offset size =>
    if size ≤ Memory.capacity then some ((m.read offset size).data.toList, m) else none
  | copy source dest size =>
    if m.covers source size && m.covers dest size then some ([], m.copyWithin source dest size)
    else none

/-- All that the operations read, one after the other, and the memory after them. -/
def performAll (m : Memory) : List MemoryOp → Option (List (List UInt8) × Memory)
  | [] => some ([], m)
  | op :: ops =>
    match op.perform m with
    | none => none
    | some (seen, between) =>
      (performAll between ops).map fun (later, after) => (seen :: later, after)

/-! ## The same on a tape -/

/-- The byte at `j` of a value of exactly `size` bytes: a longer value is cut, a shorter one stands
behind zeros. -/
def fitted (value : ByteArray) (size j : Nat) : UInt8 :=
  if j < size - value.size then 0 else Bytes.byteAt value (j - (size - value.size))

/-- The tape after an operation. -/
def onTape (tape : Nat → UInt8) : MemoryOp → Nat → UInt8
  | extend _ _, i | read _ _, i => tape i
  | store offset size value, i =>
    if offset ≤ i ∧ i < offset + size then fitted value size (i - offset) else tape i
  | copy source dest size, i =>
    if dest ≤ i ∧ i < dest + size then tape (source + (i - dest)) else tape i

/-- What an operation reads from the tape. -/
def seenOn (tape : Nat → UInt8) : MemoryOp → List UInt8
  | read offset size => (List.range size).map fun j => tape (offset + j)
  | _ => []

/-- What operations read from the tape, one after the other, and the tape after them. -/
def runOnTape (tape : Nat → UInt8) : List MemoryOp → List (List UInt8) × (Nat → UInt8)
  | [] => ([], tape)
  | op :: ops =>
    let (later, tape') := runOnTape (op.onTape tape) ops
    (op.seenOn tape :: later, tape')

end MemoryOp

namespace Memory

variable {m : Memory} {offset size : Nat}

/-! ## What one operation does -/

theorem byteAt_fit_eq (value : ByteArray) {size j : Nat} (h : j < size) :
    Bytes.byteAt (fit value size) j = MemoryOp.fitted value size j := by
  unfold MemoryOp.fitted
  by_cases long : size ≤ value.size
  · rw [byteAt_fit long h, if_neg (by omega), Nat.sub_eq_zero_of_le long, Nat.sub_zero]
  · have zeros (k : Nat) :
        (Bytes.pushZeros (ByteArray.emptyWithCapacity k) (size - value.size)).size =
          size - value.size := by
      rw [Bytes.size_pushZeros]
      exact Nat.zero_add _
    rw [fit, if_neg long, Bytes.byteAt_append, zeros, Bytes.byteAt_pushZeros,
      Bytes.byteAt_of_le (Nat.zero_le _)]

theorem canCover_of_le (h : offset + size ≤ addressLimit) :
    canCover offset size = true := by
  have near : wordsTo offset size * 32 ≤ capacity := by
    simp only [addressLimit] at h
    rw [wordsTo_eq (Nat.le_trans h (by decide))]
    simp only [capacity]
    omega
  simp [canCover, near]

theorem wordsTo_of_canCover (h : canCover offset size = true) (some : size ≠ 0) :
    wordsTo offset size = (offset + size + 31) / 32 := by
  have fits : wordsTo offset size * 32 ≤ capacity := by simpa [canCover, some] using h
  simp only [wordsTo, Saturating.add, Saturating.limit, capacity] at fits ⊢
  omega

/-- A memory that can grow to cover a range covers it then. -/
theorem covers_extend_of_canCover (m : Memory) (h : canCover offset size = true) :
    (m.extend offset size).covers offset size = true := by
  rw [covers_iff]
  by_cases some : size = 0
  · exact .inl some
  · rw [size_extend m offset size some, wordsTo_of_canCover h some]
    omega

theorem dvd_size_extend (h : 32 ∣ m.size) (offset size : Nat) :
    32 ∣ (m.extend offset size).size := by
  by_cases some : size = 0
  · rwa [some, extend_zero]
  · rw [size_extend m offset size some]
    omega

/-- A copy puts the bytes of its source into its range, as they were before it, and changes no
others. -/
theorem byteAt_copyWithin {source dest : Nat} (hsource : m.covers source size = true)
    (hdest : m.covers dest size = true) (i : Nat) :
    (m.copyWithin source dest size).byteAt i =
      if dest ≤ i ∧ i < dest + size then m.byteAt (source + (i - dest)) else m.byteAt i := by
  unfold copyWithin
  split
  · rename_i none
    rw [if_neg (by omega)]
  · rename_i some
    have whole : m.bytes.size = m.size := rfl
    have reached := (covers_iff.1 hsource).resolve_left some
    have reaches := (covers_iff.1 hdest).resolve_left some
    have taken : (m.bytes.extract source (source + size)).size = size := by
      rw [ByteArray.size_extract]
      omega
    rw [byteAt, Bytes.byteAt_overwrite (by omega), taken]
    by_cases inside : dest ≤ i ∧ i < dest + size
    · rw [if_pos inside, if_pos inside, Bytes.byteAt_extract, if_pos (by omega)]
      rfl
    · rw [if_neg inside, if_neg inside]
      rfl

end Memory

namespace MemoryOp

open Memory

variable {m after : Memory} {op : MemoryOp} {seen : List UInt8}

/-- The operation is one on the tape of the memory, which keeps its whole words and its length. -/
structure Refines (op : MemoryOp) (m after : Memory) (seen : List UInt8) : Prop where
  tape : after.byteAt = op.onTape m.byteAt
  seen : seen = op.seenOn m.byteAt
  words : 32 ∣ m.size → 32 ∣ after.size
  grows : m.size ≤ after.size

/-- An operation that has an answer acts on the tape. -/
theorem perform_refines (h : op.perform m = some (seen, after)) : op.Refines m after seen := by
  cases op with
  | extend offset size =>
      obtain ⟨-, rfl, rfl⟩ := by simpa [perform] using h
      exact ⟨funext (byteAt_extend m offset size), rfl, fun words => dvd_size_extend words _ _,
        size_le_extend m offset size⟩
  | store offset size value =>
      obtain ⟨room, rfl, rfl⟩ := by simpa [perform] using h
      have covers := covers_extend_of_canCover m room
      have stored := size_store value covers
      refine ⟨funext fun i => ?_, rfl, fun words => ?_, ?_⟩
      · rw [byteAt_store value covers, onTape]
        split
        · rename_i inside
          exact byteAt_fit_eq value (by omega)
        · rfl
      · rw [stored]
        exact dvd_size_extend words _ _
      · rw [stored]
        exact size_le_extend m offset size
  | read offset size =>
      obtain ⟨-, rfl, rfl⟩ := by simpa [perform] using h
      exact ⟨rfl, Bytes.toList_slice _ _ _, id, Nat.le_refl _⟩
  | copy source dest size =>
      obtain ⟨⟨hsource, hdest⟩, rfl, rfl⟩ := by simpa [perform] using h
      have same : (m.copyWithin source dest size).size = m.size := size_copyWithin hdest
      exact ⟨funext (byteAt_copyWithin hsource hdest), rfl, fun words => same ▸ words,
        Nat.le_of_eq same.symm⟩

/-- Covering both ranges of a copy leaves the tape alone. -/
theorem byteAt_cover (op : MemoryOp) (m : Memory) : (op.cover m).byteAt = m.byteAt := by
  cases op with
  | copy source dest size => exact funext fun i => by rw [cover, byteAt_extend, byteAt_extend]
  | extend | store | read => rfl

/-- An operation on addressable ranges has an answer, a copy once its ranges are covered. -/
theorem exists_perform (m : Memory) (h : op.Addressable) :
    ∃ seen after, op.perform (op.cover m) = some (seen, after) := by
  cases op with
  | extend offset size =>
      have room : canCover offset size = true := canCover_of_le h
      exact ⟨_, _, if_pos room⟩
  | store offset size value =>
      have room : canCover offset size = true := canCover_of_le h
      exact ⟨_, _, if_pos room⟩
  | read offset size =>
      have limit : addressLimit ≤ capacity := by decide
      have near : offset + size ≤ addressLimit := h
      exact ⟨_, _, if_pos (by omega)⟩
  | copy source dest size =>
      have hdest := covers_extend_of_canCover (m.extend source size) (canCover_of_le h.2)
      have hsource := covers_of_le (covers_extend_of_canCover m (canCover_of_le h.1))
        (size_le_extend (m.extend source size) dest size)
      exact ⟨_, _, if_pos (by rw [cover, hsource, hdest]; rfl)⟩

/-! ## What many operations do -/

variable {ops : List MemoryOp} {all : List (List UInt8)}

theorem performAll_cons_eq_some (h : performAll m (op :: ops) = some (all, after)) :
    ∃ seen between later, op.perform m = some (seen, between) ∧
      performAll between ops = some (later, after) ∧ all = seen :: later := by
  unfold performAll at h
  split at h
  · cases h
  · rename_i seen between one
    obtain ⟨⟨later, last⟩, rest, same⟩ := Option.map_eq_some_iff.1 h
    cases same
    exact ⟨seen, between, later, one, rest, rfl⟩

/-- What operations do that have an answer, from any memory of whole words. -/
structure RefinesAll (ops : List MemoryOp) (m after : Memory) (all : List (List UInt8)) :
    Prop where
  tape : runOnTape m.byteAt ops = (all, after.byteAt)
  words : 32 ∣ m.size → 32 ∣ after.size
  grows : m.size ≤ after.size

theorem performAll_refines (h : performAll m ops = some (all, after)) :
    RefinesAll ops m after all := by
  induction ops generalizing m all with
  | nil =>
      cases h
      exact ⟨rfl, id, Nat.le_refl _⟩
  | cons op ops ih =>
      obtain ⟨seen, between, later, one, rest, rfl⟩ := performAll_cons_eq_some h
      have first := perform_refines one
      have others := ih rest
      refine ⟨?_, others.words ∘ first.words, Nat.le_trans first.grows others.grows⟩
      rw [runOnTape, ← first.tape, others.tape, ← first.seen]

end MemoryOp

namespace Memory

/-- The tape on which nothing is written. -/
def blank : Nat → UInt8 := fun _ => 0

theorem byteAt_empty : empty.byteAt = blank := funext fun _ => Bytes.byteAt_of_le (Nat.zero_le _)

/-- An operation on addressable ranges of any memory has an answer, a copy once both of its ranges
are covered, which changes no byte; it leaves the tape that the operation makes of the tape before,
and reads what stands there.  Whatever operations are done on a memory that is empty at first, they
do to the blank tape what they do to the memory; its length stays a whole number of words and never
shrinks. -/
theorem refines_endless_tape :
    (∀ (m : Memory) (op : MemoryOp), op.Addressable →
        (op.cover m).byteAt = m.byteAt ∧
          ∃ seen after, op.perform (op.cover m) = some (seen, after) ∧
            after.byteAt = op.onTape m.byteAt ∧ seen = op.seenOn m.byteAt) ∧
      ∀ (ops more : List MemoryOp) (all all' : List (List UInt8)) (m after : Memory),
        MemoryOp.performAll empty ops = some (all, m) →
        MemoryOp.performAll m more = some (all', after) →
          MemoryOp.runOnTape blank ops = (all, m.byteAt) ∧
            MemoryOp.runOnTape m.byteAt more = (all', after.byteAt) ∧
            32 ∣ m.size ∧ m.size ≤ after.size := by
  constructor
  · intro m op addressable
    have same := op.byteAt_cover m
    obtain ⟨seen, after, answer⟩ := MemoryOp.exists_perform m addressable
    have refines := MemoryOp.perform_refines answer
    refine ⟨same, seen, after, answer, ?_, ?_⟩
    · rw [refines.tape, same]
    · rw [refines.seen, same]
  · intro ops more all all' m after first second
    have start := MemoryOp.performAll_refines first
    have rest := MemoryOp.performAll_refines second
    exact ⟨byteAt_empty ▸ start.tape, rest.tape, start.words fits_empty.words, rest.grows⟩

/-- A copy onto a part of its own source. -/
def overlapping : List MemoryOp := [.store 0 4 ⟨#[1, 2, 3, 4]⟩, .copy 0 2 4, .read 0 6]

/-- A short value written across the end of the memory, and read across its new end. -/
def trailing : List MemoryOp := [.store 30 4 ⟨#[7]⟩, .read 33 2]

theorem overlapping_refines :
    (MemoryOp.copy 0 2 4).Addressable ∧
      (∃ seen after, (MemoryOp.copy 0 2 4).perform ((empty.extend 0 4).extend 2 4) =
        some (seen, after) ∧ after.byteAt = (MemoryOp.copy 0 2 4).onTape empty.byteAt) ∧
      ∃ m after, MemoryOp.performAll empty overlapping = some ([[], [], [1, 2, 1, 2, 3, 4]], m) ∧
        MemoryOp.performAll m trailing = some ([[], [7, 0]], after) ∧
        MemoryOp.runOnTape blank overlapping = ([[], [], [1, 2, 1, 2, 3, 4]], m.byteAt) ∧
        32 ∣ m.size ∧ m.size ≤ after.size ∧ after.size = 64 := by
  have addressable : (MemoryOp.copy 0 2 4).Addressable := ⟨by decide, by decide⟩
  obtain ⟨-, seen, last, answer, tape, -⟩ := refines_endless_tape.1 empty _ addressable
  let m := (empty.store 0 4 ⟨#[1, 2, 3, 4]⟩).copyWithin 0 2 4
  have first : MemoryOp.performAll empty overlapping = some ([[], [], [1, 2, 1, 2, 3, 4]], m) := by
    decide +kernel
  have second : MemoryOp.performAll m trailing =
      some ([[], [7, 0]], m.store 30 4 ⟨#[7]⟩) := by
    decide +kernel
  obtain ⟨tapes, -, words, grows⟩ := refines_endless_tape.2 _ _ _ _ _ _ first second
  exact ⟨addressable, ⟨seen, last, answer, tape⟩, m, _, first, second, tapes, words, grows,
    by decide +kernel⟩

end Memory

end EvmHarness
