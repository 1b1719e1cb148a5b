import EvmHarness.Proofs.InstructionRun
import Mathlib.Data.Int.ModEq
set_option autoImplicit false

/-!
# Signed instructions as integer arithmetic

Six instructions take words for integers in two's complement.  What they leave is said here of
integers (`BinaryOp.integer?`), and the words that they push stand for these (`Word.Represents`): a
quotient truncated toward zero and its remainder, comparisons, a quotient by a power of two rounded
down, and the low bytes of a word read by themselves.
-/

namespace EvmHarness

/-! ## Integers that words stand for -/

/-- The integer that the low `bits` bits of a number write in two's complement: the upper half of
what they can write is negative. -/
def twosComplement (bits n : Nat) : Int :=
  if n % 2 ^ bits < 2 ^ (bits - 1) then (n % 2 ^ bits : Nat)
  else (n % 2 ^ bits : Nat) - (2 ^ bits : Nat)

theorem twosComplement_eq_toInt {bits : Nat} (h : 0 < bits) (n : Nat) :
    twosComplement bits n = (BitVec.ofNat bits n).toInt := by
  obtain ⟨below, rfl⟩ := Nat.exists_eq_succ_of_ne_zero (Nat.ne_of_gt h)
  have upper : n % 2 ^ (below + 1) < 2 ^ below ↔ 2 * (n % 2 ^ (below + 1)) < 2 ^ (below + 1) := by
    rw [Nat.pow_succ]
    omega
  rw [twosComplement, BitVec.toInt_eq_toNat_cond, BitVec.toNat_ofNat]
  simp only [Nat.succ_eq_add_one, Nat.add_sub_cancel, upper]

namespace Word

/-- The integer that a word is in two's complement. -/
def integer (w : Word) : Int := twosComplement 256 w.toNat

theorem integer_eq_toInt (w : Word) : w.integer = w.toInt := by
  rw [integer, twosComplement_eq_toInt (by decide), BitVec.ofNat_toNat, BitVec.setWidth_eq]

/-- The word stands for an integer: it is congruent to it modulo the number of words. -/
def Represents (w : Word) (i : Int) : Prop := w.toNat ≡ i [ZMOD 2 ^ 256]

/-- The least integer that a word can be. -/
def least : Word := BitVec.intMin 256

variable {a b s w x : Word} {i : Int}

theorem represents_ofInt (i : Int) : Represents (BitVec.ofInt 256 i) i := by
  have residue : ((BitVec.ofInt 256 i).toNat : Int) = i % 2 ^ 256 := by
    rw [BitVec.toNat_ofInt, Int.toNat_of_nonneg (Int.emod_nonneg _ (by decide))]
    rfl
  rw [Represents, residue]
  exact Int.mod_modEq _ _

theorem ofInt_integer (w : Word) : BitVec.ofInt 256 w.integer = w := by
  rw [integer_eq_toInt, BitVec.ofInt_toInt]

theorem represents_of_integer_eq (h : w.integer = i) : w.Represents i := by
  rw [← ofInt_integer w, h]
  exact represents_ofInt i

/-! ## Division -/

/-- Only the least integer divided by minus one leaves the range of words. -/
theorem integer_signedDiv (hb : b ≠ 0) (inside : ¬(a = least ∧ b = -1)) :
    (signedDiv a b).integer = a.integer.tdiv b.integer := by
  have inside : a ≠ BitVec.intMin 256 ∨ b ≠ -1#256 := not_and_or.1 inside
  rw [signedDiv, if_neg hb, integer_eq_toInt, integer_eq_toInt, integer_eq_toInt,
    BitVec.toInt_sdiv_of_ne_or_ne a b inside]

/-- The quotient of any two words, reduced to a word where it leaves their range. -/
theorem signedDiv_eq_ofInt (hb : b ≠ 0) :
    signedDiv a b = BitVec.ofInt 256 (a.integer.tdiv b.integer) := by
  rw [signedDiv, if_neg hb, integer_eq_toInt, integer_eq_toInt]
  apply BitVec.eq_of_toInt_eq
  rw [BitVec.toInt_sdiv, BitVec.toInt_ofInt]

theorem signedDiv_represents (hb : b ≠ 0) :
    (signedDiv a b).Represents (a.integer.tdiv b.integer) := by
  rw [signedDiv_eq_ofInt hb]
  exact represents_ofInt _

theorem integer_signedMod (hb : b ≠ 0) :
    (signedMod a b).integer = a.integer.tmod b.integer := by
  rw [signedMod, if_neg hb, integer_eq_toInt, integer_eq_toInt, integer_eq_toInt,
    BitVec.toInt_srem]

/-- Quotient and remainder give the dividend back, also where the quotient wraps. -/
theorem signedDiv_mul_add_signedMod (hb : b ≠ 0) : signedDiv a b * b + signedMod a b = a := by
  have remainder : signedMod a b = BitVec.ofInt 256 (a.integer.tmod b.integer) := by
    rw [← integer_signedMod hb, ofInt_integer]
  calc signedDiv a b * b + signedMod a b
      = BitVec.ofInt 256 (a.integer.tdiv b.integer) * BitVec.ofInt 256 b.integer +
          BitVec.ofInt 256 (a.integer.tmod b.integer) := by
        rw [signedDiv_eq_ofInt hb, remainder, ofInt_integer b]
    _ = BitVec.ofInt 256 (a.integer.tdiv b.integer * b.integer + a.integer.tmod b.integer) := by
        rw [BitVec.ofInt_add, BitVec.ofInt_mul]
    _ = a := by rw [Int.tdiv_mul_add_tmod, ofInt_integer]

/-! ## Shifts -/

theorem integer_bounds (w : Word) : -2 ^ 255 ≤ w.integer ∧ w.integer < 2 ^ 255 := by
  have low := BitVec.le_two_mul_toInt (x := w)
  have high := BitVec.two_mul_toInt_lt (x := w)
  rw [integer_eq_toInt]
  omega

/-- From 255 places on only the sign is left of a quotient rounded down. -/
theorem fdiv_two_pow_of_le {n : Nat} (h : 255 ≤ n) (w : Word) :
    w.integer.fdiv (2 ^ n) = w.integer.fdiv (2 ^ 255) := by
  obtain ⟨low, high⟩ := w.integer_bounds
  have far : (2 : Int) ^ 255 ≤ 2 ^ n := by exact_mod_cast Nat.pow_le_pow_right Nat.two_pos h
  rw [Int.fdiv_eq_ediv_of_nonneg _ (by omega), Int.fdiv_eq_ediv_of_nonneg _ (by omega)]
  obtain negative | positive := Int.lt_or_le w.integer 0
  · rw [Int.ediv_eq_neg_one_of_neg_of_le negative (by omega),
      Int.ediv_eq_neg_one_of_neg_of_le negative (by omega)]
  · rw [Int.ediv_eq_zero_of_lt positive (by omega), Int.ediv_eq_zero_of_lt positive (by omega)]

theorem integer_arithmeticShiftRight (s w : Word) :
    (arithmeticShiftRight s w).integer = w.integer.fdiv (2 ^ s.toNat) := by
  have shifted (n : Nat) : Word.integer (w.sshiftRight n) = w.integer.fdiv (2 ^ n) := by
    rw [integer_eq_toInt, integer_eq_toInt, BitVec.toInt_sshiftRight, Int.shiftRight_eq_div_pow,
      Int.fdiv_eq_ediv_of_nonneg _ (Int.le_of_lt (Int.pow_pos (by decide)))]
    rfl
  rw [arithmeticShiftRight, shifted]
  obtain near | far := Nat.le_total s.toNat 255
  · rw [Nat.min_eq_left near]
  · rw [Nat.min_eq_right far, fdiv_two_pow_of_le far]

/-! ## Low bytes -/

theorem integer_signExtend (h : x.toNat < 31) :
    (signExtend x w).integer = twosComplement (8 * (x.toNat + 1)) w.toNat := by
  have fewer : min 256 (8 * (x.toNat + 1)) = 8 * (x.toNat + 1) := by omega
  rw [signExtend, if_pos h, integer_eq_toInt, BitVec.toInt_signExtend, fewer,
    BitVec.toInt_bmod_cancel, twosComplement_eq_toInt (by omega), BitVec.ofNat_toNat]

/-! ## The same by complements and masks -/

/-- Past its sign bit nothing is left of a word that is not negative. -/
theorem shiftRight_eq_zero (positive : w.msb = false) : w >>> 255 = 0 := by
  have low : 2 * w.toNat < 2 ^ 256 := BitVec.msb_eq_false_iff_two_mul_lt.1 positive
  apply BitVec.eq_of_toNat_eq
  rw [BitVec.toNat_ushiftRight, Nat.shiftRight_eq_div_pow]
  exact Nat.div_eq_of_lt (by omega)

/-- A negative word is moved right as the complement of its complement. -/
theorem arithmeticShiftRight_eq_complement (s w : Word) :
    arithmeticShiftRight s w =
      if 255 < s.toNat then if w.msb then BitVec.allOnes 256 else 0
      else if w.msb then ~~~(~~~w >>> s.toNat) else w >>> s.toNat := by
  unfold arithmeticShiftRight
  split
  · rename_i far
    rw [Nat.min_eq_right (Nat.le_of_lt far)]
    cases negative : w.msb with
    | true =>
        have positive : (~~~w).msb = false := by simp [negative]
        rw [BitVec.sshiftRight_eq_of_msb_true negative, shiftRight_eq_zero positive]
        rfl
    | false =>
        rw [BitVec.sshiftRight_eq_of_msb_false negative, shiftRight_eq_zero negative]
        rfl
  · rename_i near
    rw [Nat.min_eq_left (Nat.le_of_not_lt near)]
    cases negative : w.msb with
    | true => exact BitVec.sshiftRight_eq_of_msb_true negative
    | false => exact BitVec.sshiftRight_eq_of_msb_false negative

/-- The word whose ones are the bits below a place. -/
def lowMask (place : Nat) : Word := (1 : Word) <<< place - 1

theorem getLsbD_lowMask {place : Nat} (h : place < 256) (i : Nat) :
    (lowMask place).getLsbD i = decide (i < place) := by
  have bit : ((1 : Word) <<< place).toNat = 2 ^ place := by
    rw [BitVec.toNat_shiftLeft, Nat.shiftLeft_eq]
    exact (congrArg (· % 2 ^ 256) (Nat.one_mul _)).trans
      (Nat.mod_eq_of_lt (Nat.pow_lt_pow_right (by decide) h))
  have one : (1 : Word) ≤ (1 : Word) <<< place := by
    rw [BitVec.le_def, bit]
    exact Nat.two_pow_pos place
  rw [BitVec.getLsbD, lowMask, BitVec.toNat_sub_of_le one, bit]
  exact Nat.testBit_two_pow_sub_one place i

/-- Below its sign bit a word is kept, and from there on the sign bit is copied. -/
theorem signExtend_eq_masked (h : x.toNat < 31) (w : Word) :
    signExtend x w =
      if w.getLsbD (8 * x.toNat + 7) then w ||| ~~~lowMask (8 * x.toNat + 7)
      else w &&& lowMask (8 * x.toNat + 7) := by
  have sign : (w.setWidth (8 * (x.toNat + 1))).msb = w.getLsbD (8 * x.toNat + 7) := by
    rw [BitVec.msb_setWidth]
    simp [Nat.mul_succ]
  rw [signExtend, if_pos h]
  apply BitVec.eq_of_getLsbD_eq
  intro i hi
  have inside : 8 * x.toNat + 7 < 256 := by omega
  have mask := getLsbD_lowMask inside i
  rw [BitVec.getLsbD_signExtend, sign, BitVec.getLsbD_setWidth]
  -- the bit at hand lies below the sign bit, is the sign bit, or lies above it
  have width : 8 * (x.toNat + 1) = 8 * x.toNat + 7 + 1 := by omega
  cases negative : w.getLsbD (8 * x.toNat + 7) with
  | true =>
      rw [if_pos rfl, BitVec.getLsbD_or, BitVec.getLsbD_not, mask, width]
      obtain below | rfl | above := Nat.lt_trichotomy i (8 * x.toNat + 7)
      · simp [hi, below, Nat.lt_succ_of_lt below]
      · simp [hi, negative]
      · simp [hi, Nat.not_lt_of_lt above, Nat.not_lt.2 (Nat.succ_le_of_lt above)]
  | false =>
      rw [if_neg Bool.false_ne_true, BitVec.getLsbD_and, mask, width]
      obtain below | rfl | above := Nat.lt_trichotomy i (8 * x.toNat + 7)
      · simp [hi, below, Nat.lt_succ_of_lt below]
      · simp only [negative, Nat.lt_irrefl, decide_false, Bool.and_false, ite_self]
      · simp [hi, Nat.not_lt_of_lt above, Nat.not_lt.2 (Nat.succ_le_of_lt above)]

theorem integer_ofBool (c : Bool) : (ofBool c).integer = if c then 1 else 0 := by
  cases c <;> rfl

theorem slt_iff : a.slt b ↔ a.integer < b.integer := by
  rw [integer_eq_toInt, integer_eq_toInt, BitVec.slt_iff_toInt_lt]

end Word

/-! ## What the instructions push -/

/-- The integer that a signed operation computes of two words, if it is one. -/
def BinaryOp.integer? : BinaryOp → Word → Word → Option Int
  | .signedDiv, a, b => some (if b = 0 then 0 else a.integer.tdiv b.integer)
  | .signedMod, a, b => some (if b = 0 then 0 else a.integer.tmod b.integer)
  | .signedLt, a, b => some (if a.integer < b.integer then 1 else 0)
  | .signedGt, a, b => some (if b.integer < a.integer then 1 else 0)
  | .arithmeticShiftRight, s, w => some (w.integer.fdiv (2 ^ s.toNat))
  | .signExtend, x, w =>
    some (if x.toNat < 31 then twosComplement (8 * (x.toNat + 1)) w.toNat else w.integer)
  | _, _, _ => none

/-- The word of a signed operation stands for its integer, and is that integer but for the one
quotient that is out of range. -/
theorem BinaryOp.eval_represents {op : BinaryOp} {x y : Word} {i : Int}
    (signed : op.integer? x y = some i) :
    (op.eval x y).Represents i ∧
      ((op.eval x y).integer = i ∨ op = .signedDiv ∧ x = Word.least ∧ y = -1) := by
  have exactly {w : Word} (h : w.integer = i) : w.Represents i ∧
      (w.integer = i ∨ op = .signedDiv ∧ x = Word.least ∧ y = -1) :=
    ⟨Word.represents_of_integer_eq h, .inl h⟩
  cases op with
  | signedDiv =>
      obtain rfl := Option.some.inj signed
      by_cases zero : y = 0
      · rw [if_pos zero] at exactly ⊢
        refine exactly ?_
        rw [eval, Word.signedDiv, if_pos zero]
        rfl
      · rw [if_neg zero] at exactly ⊢
        by_cases wraps : x = Word.least ∧ y = -1
        · exact ⟨Word.signedDiv_represents zero, .inr ⟨rfl, wraps⟩⟩
        · exact exactly (Word.integer_signedDiv zero wraps)
  | signedMod =>
      obtain rfl := Option.some.inj signed
      refine exactly ?_
      by_cases zero : y = 0
      · rw [if_pos zero, eval, Word.signedMod, if_pos zero]
        rfl
      · rw [if_neg zero]
        exact Word.integer_signedMod zero
  | signedLt =>
      obtain rfl := Option.some.inj signed
      refine exactly ?_
      rw [eval, Word.integer_ofBool]
      simp only [Word.slt_iff]
  | signedGt =>
      obtain rfl := Option.some.inj signed
      refine exactly ?_
      rw [eval, Word.integer_ofBool]
      simp only [Word.slt_iff]
  | arithmeticShiftRight =>
      obtain rfl := Option.some.inj signed
      exact exactly (Word.integer_arithmeticShiftRight x y)
  | signExtend =>
      obtain rfl := Option.some.inj signed
      refine exactly ?_
      by_cases low : x.toNat < 31
      · rw [if_pos low]
        exact Word.integer_signExtend low
      · rw [if_neg low, eval, Word.signExtend, if_neg low]
  | _ => exact absurd signed nofun

namespace Action

variable {env : Environment} {a : Active} {op : BinaryOp} {x y : Word} {rest : List Word}

/-- An operation on two words takes them off the stack and pushes its own. -/
theorem instruction_of_binary (starts : a.Starts (.frame (.binary op)))
    (words : a.frame.stack.words = x :: y :: rest) :
    ∃ b, instruction env a = .ok .proceed b ∧ b.frame.stack.words = op.eval x y :: rest := by
  have room : rest.length < Stack.limit := by
    have room : a.frame.stack.words.length - 2 + 1 ≤ Stack.limit := starts.room
    rw [words, List.length_cons, List.length_cons] at room
    exact room
  let f : Frame := (a.started (.frame (.binary op))).frame
  have first : FrameM.pop f = .ok x { f with stack := ⟨y :: rest⟩ } := by
    have popped := FrameM.pop_apply f
    have same : f.stack.words = x :: y :: rest := words
    rw [same] at popped
    exact popped
  have second : FrameM.pop { f with stack := ⟨y :: rest⟩ } = .ok y { f with stack := ⟨rest⟩ } :=
    FrameM.pop_apply _
  have pushed : FrameM.push (op.eval x y) { f with stack := ⟨rest⟩ } =
      .ok () { f with stack := ⟨op.eval x y :: rest⟩ } :=
    (FrameM.push_apply _ _).trans (if_pos room)
  have performed : FrameM.perform env (.binary op) f =
      .ok () { f with stack := ⟨op.eval x y :: rest⟩ } :=
    EvmHarness.bind_eq_ok.2 ⟨x, _, first, EvmHarness.bind_eq_ok.2 ⟨y, _, second, pushed⟩⟩
  exact ⟨_, (instruction_of_starts env starts).trans
    (bind_of_eq_ok (onFrame_of_eq_ok performed env) fun _ => pure Next.proceed), rfl⟩

/-- The signed instructions compute on the integers that words are in two's complement.  With two
words on the stack each of them pushes a word for the integer that it is to compute: the quotient
truncated toward zero or the remainder with the sign of the dividend, zero for a zero divisor; one
or zero for a comparison; the quotient by a power of two, however large, rounded down; the low bytes
of a word read by themselves.  The word is congruent to that integer and, read as an integer, is
that integer, save for the least integer divided by minus one.  Quotient and remainder give the
dividend back in every case. -/
theorem signed_instructions_exact :
    (∀ (env : Environment) (a : Active) (op : BinaryOp) (x y : Word) (rest : List Word) (i : Int),
        a.Starts (.frame (.binary op)) → a.frame.stack.words = x :: y :: rest →
        op.integer? x y = some i →
          ∃ b, instruction env a = .ok .proceed b ∧ b.frame.stack.words = op.eval x y :: rest ∧
            (op.eval x y).Represents i ∧
            ((op.eval x y).integer = i ∨ op = .signedDiv ∧ x = Word.least ∧ y = -1)) ∧
      ∀ x y : Word, y ≠ 0 →
        BinaryOp.signedDiv.eval x y * y + BinaryOp.signedMod.eval x y = x := by
  constructor
  · intro env a op x y rest i starts words signed
    obtain ⟨b, computed, pushed⟩ := instruction_of_binary starts words
    exact ⟨b, computed, pushed, BinaryOp.eval_represents signed⟩
  · intro x y
    exact Word.signedDiv_mul_add_signedMod

/-- A frame in front of an instruction, with words on its stack and gas for it. -/
def computing (opcode : UInt8) (words : List Word) : Active where
  frame := { Frame.withGas 10 with
    code := ⟨#[opcode]⟩
    stack := ⟨words⟩ }
  world := World.empty

/-- The least integer divided by minus one wraps, minus five moved right by 300 bits is minus one,
and the low byte of 0x180 is minus 128. -/
theorem extremes_computed_exactly :
    (∃ b, instruction default (computing 0x05 [Word.least, -1]) = .ok .proceed b ∧
        b.frame.stack.words = [Word.least]) ∧
      (∃ b, instruction default (computing 0x1d [300, -5]) = .ok .proceed b ∧
        ∃ w : Word, b.frame.stack.words = [w] ∧ w.integer = -1) ∧
      ∃ b, instruction default (computing 0x0b [0, 0x180]) = .ok .proceed b ∧
        ∃ w : Word, b.frame.stack.words = [w] ∧ w.integer = -128 := by
  have computes := signed_instructions_exact.1 default
  refine ⟨?_, ?_, ?_⟩
  · obtain ⟨b, computed, pushed, -⟩ := computes (computing 0x05 [Word.least, -1]) .signedDiv _ _ _ _
      ⟨rfl, by decide, by decide, by decide⟩ rfl rfl
    have wraps : BinaryOp.signedDiv.eval Word.least (-1) = Word.least := by decide +kernel
    exact ⟨b, computed, pushed.trans (by rw [wraps])⟩
  · obtain ⟨b, computed, pushed, -, exactly⟩ := computes (computing 0x1d [300, -5])
      .arithmeticShiftRight _ _ _ _ ⟨rfl, by decide, by decide, by decide⟩ rfl rfl
    have down : Word.integer (-5) = -5 := by decide +kernel
    refine ⟨b, computed, _, pushed, (exactly.resolve_right nofun).trans ?_⟩
    rw [down]
    decide +kernel
  · obtain ⟨b, computed, pushed, -, exactly⟩ := computes (computing 0x0b [0, 0x180]) .signExtend
      _ _ _ _ ⟨rfl, by decide, by decide, by decide⟩ rfl rfl
    refine ⟨b, computed, _, pushed, (exactly.resolve_right nofun).trans ?_⟩
    decide +kernel

end Action

end EvmHarness
