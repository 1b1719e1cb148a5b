import EvmHarness.Address.Text
import EvmHarness.Proofs.MemoryView
import Mathlib.Data.List.TakeWhile
import Mathlib.Data.String.Basic
set_option autoImplicit false

/-!
# Hexadecimal text is read back

Whatever bytes a text has been written for, reading it gives these bytes.  The reader is lenient
around the digits: it drops blanks at both ends and any number of marks, and takes digits of either
case.  None of that touches the digits themselves, since no digit is blank and none of them is the
letter of a mark.
-/

namespace EvmHarness

namespace Bytes

/-! ## The bytes of a number -/

/-- The last byte of a number is its lowest one. -/
theorem pushNumber_succ (b : ByteArray) (value n : Nat) :
    pushNumber b value (n + 1) = (pushNumber b (value >>> 8) n).push (UInt8.ofNat value) := by
  rw [pushNumber_add b value n 1]
  rfl

theorem numberAt_push (b : ByteArray) (byte : UInt8) {n : Nat} (h : n ≤ b.size) :
    numberAt (b.push byte) 0 n = numberAt b 0 n := by
  induction n with
  | zero => rfl
  | succ n ih => rw [numberAt, numberAt, ih (by omega), byteAt_push, if_neg (by omega)]

theorem toNumber_push (b : ByteArray) (byte : UInt8) :
    toNumber (b.push byte) = toNumber b * 256 + byte.toNat := by
  rw [toNumber, ByteArray.size_push, numberAt, numberAt_push b byte (Nat.le_refl _), Nat.zero_add,
    byteAt_push, if_pos rfl, toNumber]

/-- A number follows the bytes that are there, reduced to the bytes that it is given. -/
theorem toNumber_pushNumber (b : ByteArray) (value n : Nat) :
    toNumber (pushNumber b value n) = toNumber b * 256 ^ n + value % 256 ^ n := by
  induction n generalizing value with
  | zero => simp [pushNumber, Nat.mod_one]
  | succ n ih =>
      have higher : value >>> 8 = value / 256 := by omega
      have lowest : (UInt8.ofNat value).toNat = value % 256 := UInt8.toNat_ofNat'
      have split : value % 256 ^ (n + 1) = value % 256 + 256 * (value / 256 % 256 ^ n) := by
        rw [Nat.pow_succ', Nat.mod_mul]
      rw [pushNumber_succ, toNumber_push, ih, split, higher, lowest, Nat.pow_succ, ← Nat.mul_assoc]
      omega

theorem toNumber_ofNumber {n value : Nat} (h : value < 256 ^ n) :
    toNumber (ofNumber n value) = value := by
  rw [ofNumber, toNumber_pushNumber, Nat.mod_eq_of_lt h]
  exact (congrArg (· + value) (Nat.zero_mul _)).trans (Nat.zero_add value)

theorem size_ofNumber (n value : Nat) : (ofNumber n value).size = n := by
  rw [ofNumber, size_pushNumber]
  exact Nat.zero_add n

end Bytes

namespace Text

theorem dropWhile_blank_of_none {cs : List Char} (h : ∀ c ∈ cs, isBlank c = false) :
    cs.dropWhile isBlank = cs := by
  cases cs with
  | nil => rfl
  | cons c cs =>
      have first := h c List.mem_cons_self
      rw [List.dropWhile_cons_of_neg (by simp [first])]

/-- Blanks at both ends are dropped, and no more than these if what is between has none. -/
theorem trimBlanks_surrounded {before core after : List Char} (opens : ∀ c ∈ before, isBlank c)
    (kept : ∀ c ∈ core, isBlank c = false) (closes : ∀ c ∈ after, isBlank c) :
    trimBlanks (before ++ core ++ after) = core := by
  have front : (before ++ core ++ after).dropWhile isBlank = (core ++ after).dropWhile isBlank := by
    rw [List.append_assoc, List.dropWhile_append_of_pos opens]
  rw [trimBlanks, front, List.dropWhile_append, dropWhile_blank_of_none kept]
  cases core with
  | nil =>
      have nothing : after.dropWhile isBlank = [] := List.dropWhile_eq_nil_iff.2 closes
      simp [nothing]
  | cons c core =>
      have back : (c :: core ++ after).reverse.dropWhile isBlank = (c :: core).reverse := by
        rw [List.reverse_append, List.dropWhile_append_of_pos fun c hc =>
          closes c (List.mem_reverse.1 hc)]
        exact dropWhile_blank_of_none fun c hc => kept c (List.mem_reverse.1 hc)
      rw [if_neg (by simp), back, List.reverse_reverse]

end Text

namespace Hex

/-! ## Digits -/

/-- What holds of the first 128 characters holds of each of them. -/
theorem forall_ascii (P : Char → Prop) (table : ∀ n < 128, P (Char.ofNat n)) {c : Char}
    (h : c.toNat < 128) : P c := by
  have holds := table c.toNat h
  rwa [Char.ofNat_toNat] at holds

theorem ascii_of_toLower {c : Char} (h : c.toLower.toNat < 128) : c.toNat < 128 := by
  unfold Char.toLower at h
  split at h
  · rename_i capital
    exact Nat.lt_of_le_of_lt capital.2 (by decide)
  · exact h

/-- A capital letter is written the same in lower case as the letter itself. -/
theorem toLower_toUpper (c : Char) : c.toUpper.toLower = c.toLower := by
  by_cases ascii : c.toNat < 128
  · have table : ∀ n < 128, (Char.ofNat n).toUpper.toLower = (Char.ofNat n).toLower := by
      decide +kernel
    exact forall_ascii (fun c => c.toUpper.toLower = c.toLower) table ascii
  · have unchanged : c.toUpper = c := by
      unfold Char.toUpper
      rw [dif_neg]
      rintro ⟨-, last⟩
      exact ascii (Nat.lt_of_le_of_lt last (by decide))
    rw [unchanged]

/-- In either case the digit for a value has this value. -/
theorem digitValue?_of_toLower {c : Char} {n : Nat} (small : n < 16) (h : c.toLower = digit n) :
    digitValue? c = some n := by
  have digits : ∀ n < 16, (digit n).toNat < 128 := by decide
  have values : ∀ m < 128, ∀ n < 16, (Char.ofNat m).toLower = digit n →
      digitValue? (Char.ofNat m) = some n := by decide +kernel
  have ascii : c.toNat < 128 := ascii_of_toLower (h ▸ digits n small)
  exact forall_ascii (fun c => ∀ n < 16, c.toLower = digit n → digitValue? c = some n)
    values ascii n small h

/-- The reader can only take the character for a digit: it is no blank, no letter of a mark and no
sign, and one byte wide. -/
structure IsDigit (c : Char) : Prop where
  notBlank : Text.isBlank c = false
  notMark : c ≠ 'x'
  notSign : c ≠ '+'
  narrow : c.utf8Size = 1

theorem isDigit_of_digitValue? {c : Char} {n : Nat} (h : digitValue? c = some n) : IsDigit c := by
  have ascii : c.toNat < 128 := by
    have last : c ≤ '9' ∨ c ≤ 'f' ∨ c ≤ 'F' := by
      unfold digitValue? at h
      grind
    rcases last with last | last | last
    all_goals exact Nat.lt_of_le_of_lt last (by decide)
  have table : ∀ m < 128, (digitValue? (Char.ofNat m)).isSome →
      Text.isBlank (Char.ofNat m) = false ∧ Char.ofNat m ≠ 'x' ∧ Char.ofNat m ≠ '+' ∧
        (Char.ofNat m).utf8Size = 1 := by decide +kernel
  obtain ⟨notBlank, notMark, notSign, narrow⟩ := forall_ascii
    (fun c => (digitValue? c).isSome → Text.isBlank c = false ∧ c ≠ 'x' ∧ c ≠ '+' ∧
      c.utf8Size = 1) table ascii (by rw [h]; rfl)
  exact ⟨notBlank, notMark, notSign, narrow⟩

/-! ## Pairs of digits -/

/-- The characters are the digits of the bytes, in either case. -/
def Spells (cs : List Char) (bytes : List UInt8) : Prop :=
  cs.map Char.toLower = encodeBytes bytes

theorem Spells.cons {cs : List Char} {b : UInt8} {bytes : List UInt8} (h : Spells cs (b :: bytes)) :
    ∃ c d rest, cs = c :: d :: rest ∧ digitValue? c = some (b.toNat / 16) ∧
      digitValue? d = some (b.toNat % 16) ∧ Spells rest bytes := by
  have small := b.toNat_lt
  have written : cs.map Char.toLower =
      digit (b.toNat / 16) :: digit (b.toNat % 16) :: encodeBytes bytes := h
  obtain ⟨c, cs, rfl, high, written⟩ := List.map_eq_cons_iff.1 written
  obtain ⟨d, rest, rfl, low, written⟩ := List.map_eq_cons_iff.1 written
  exact ⟨c, d, rest, rfl, digitValue?_of_toLower (by omega) high,
    digitValue?_of_toLower (by omega) low, written⟩

theorem toLower_encodeBytes (bytes : List UInt8) :
    (encodeBytes bytes).map Char.toLower = encodeBytes bytes := by
  have lower : ∀ n < 16, (digit n).toLower = digit n := by decide
  induction bytes with
  | nil => rfl
  | cons b bytes ih =>
      have small := b.toNat_lt
      have high := lower (b.toNat / 16) (by omega)
      have low := lower (b.toNat % 16) (by omega)
      show Char.toLower _ :: Char.toLower _ :: (encodeBytes bytes).map Char.toLower = _
      rw [high, low, ih]
      rfl

theorem Spells.nil {cs : List Char} (h : Spells cs []) : cs = [] := List.map_eq_nil_iff.1 h

variable {cs : List Char} {bytes : List UInt8}

theorem Spells.exists_value (h : Spells cs bytes) : ∀ c ∈ cs, ∃ n, digitValue? c = some n := by
  induction bytes generalizing cs with
  | nil => simp [h.nil]
  | cons b bytes ih =>
      obtain ⟨c, d, rest, rfl, high, low, spells⟩ := h.cons
      simp only [List.mem_cons, forall_eq_or_imp]
      exact ⟨⟨_, high⟩, ⟨_, low⟩, ih spells⟩

theorem Spells.digits (h : Spells cs bytes) : ∀ c ∈ cs, IsDigit c := by
  intro c hc
  obtain ⟨n, value⟩ := h.exists_value c hc
  exact isDigit_of_digitValue? value

/-- Two bytes of text for each byte that is spelled. -/
theorem Spells.size (h : Spells cs bytes) :
    (String.ofList cs).utf8ByteSize = 2 * bytes.length := by
  rw [String.utf8ByteSize_ofList]
  induction bytes generalizing cs with
  | nil => rw [h.nil]; rfl
  | cons b bytes ih =>
      obtain ⟨c, d, rest, rfl, high, low, spells⟩ := h.cons
      have wide := (isDigit_of_digitValue? high).narrow
      have wide' := (isDigit_of_digitValue? low).narrow
      simp only [String.utf8Len_cons, ih spells, wide, wide', List.length_cons]
      omega

theorem Spells.decodePairs (h : Spells cs bytes) : decodePairs cs = .ok bytes := by
  induction bytes generalizing cs with
  | nil => rw [h.nil]; rfl
  | cons b bytes ih =>
      obtain ⟨c, d, rest, rfl, high, low, spells⟩ := h.cons
      have first := isDigit_of_digitValue? high
      have second := isDigit_of_digitValue? low
      have halves : b.toNat / 16 * 16 + b.toNat % 16 = b.toNat := Nat.div_add_mod' _ _
      have pair : pairValue? c d = some b := by
        simp only [pairValue?, low, first.notSign, if_false, high, Option.map_some, halves,
          UInt8.ofNat_toNat]
      rw [Hex.decodePairs, if_pos first.narrow, if_pos second.narrow, pair, ih spells]
      rfl

/-! ## Marks -/

/-- The mark `0x`, any number of times. -/
def marks (n : Nat) : List Char := (List.replicate n ['0', 'x']).flatten

theorem dropMarks_marks (n : Nat) (cs : List Char) : dropMarks (marks n ++ cs) = dropMarks cs := by
  induction n with
  | zero => rfl
  | succ n ih => exact ih

/-- No digit is taken for a part of a mark. -/
theorem dropMarks_digits (h : ∀ c ∈ cs, IsDigit c) : dropMarks cs = cs := by
  unfold dropMarks
  split
  · rename_i rest
    have letter := h 'x' (by simp)
    exact absurd rfl letter.notMark
  · rfl

theorem mem_marks {n : Nat} {c : Char} (h : c ∈ marks n) : c = '0' ∨ c = 'x' := by
  simp only [marks, List.mem_flatten, List.mem_replicate] at h
  obtain ⟨_, ⟨_, rfl⟩, h⟩ := h
  simpa using h

theorem not_blank_of_mem_marks {n : Nat} {c : Char} (h : c ∈ marks n) : Text.isBlank c = false := by
  rcases mem_marks h with rfl | rfl <;> decide

/-! ## Texts of a byte string -/

/-- A way to write a byte string: its digits in either case, after any number of marks, with blanks
around the whole. -/
structure Spelling (b : ByteArray) where
  before : List Char
  marks : Nat
  digits : List Char
  after : List Char
  opens : ∀ c ∈ before, Text.isBlank c
  spells : digits.map Char.toLower = (encode b).toList
  closes : ∀ c ∈ after, Text.isBlank c

namespace Spelling

variable {b : ByteArray}

/-- The text that is written. -/
def text (s : Spelling b) : String :=
  String.ofList (s.before ++ (Hex.marks s.marks ++ s.digits) ++ s.after)

/-- The usual way: one mark, and the digits in lower case. -/
def usual (b : ByteArray) : Spelling b where
  before := []
  marks := 1
  digits := (encode b).toList
  after := []
  opens := by simp
  spells := by rw [encode, String.toList_ofList, toLower_encodeBytes]
  closes := by simp

/-- The same with capital letters for digits. -/
def capitals (s : Spelling b) : Spelling b :=
  { s with
    digits := s.digits.map Char.toUpper
    spells := by
      rw [← s.spells, List.map_map]
      exact List.map_congr_left fun c _ => toLower_toUpper c }

theorem text_usual (b : ByteArray) : (usual b).text = marked b := by
  rw [← String.toList_inj, text, String.toList_ofList, marked, String.toList_append]
  exact List.append_nil _

theorem spells_digits (s : Spelling b) : Spells s.digits b.data.toList := by
  rw [Spells, s.spells, encode, String.toList_ofList]

/-- What must be digits are the digits: neither blanks nor marks remain, and no digit is lost. -/
theorem payload_text (s : Spelling b) : payload s.text = s.digits := by
  have digits := s.spells_digits.digits
  have kept : ∀ c ∈ Hex.marks s.marks ++ s.digits, Text.isBlank c = false := by
    intro c hc
    rcases List.mem_append.1 hc with marks | digit
    · exact not_blank_of_mem_marks marks
    · exact (digits c digit).notBlank
  rw [payload, text, String.toList_ofList, Text.trimBlanks_surrounded s.opens kept s.closes,
    dropMarks_marks, dropMarks_digits digits]

theorem decode_text (s : Spelling b) : decode s.text = .ok b := by
  have even : (String.ofList s.digits).utf8ByteSize % 2 = 0 := by
    rw [s.spells_digits.size]
    exact Nat.mul_mod_right 2 _
  rw [decode, s.payload_text, if_neg (by simp [even]), s.spells_digits.decodePairs]

end Spelling

/-! ## Texts of a number -/

theorem digits_add_two (value n : Nat) :
    digits value (n + 2) = digits (value >>> 8) n ++ encodeByte (UInt8.ofNat value) := by
  have shifted : value / 16 / 16 = value >>> 8 := by omega
  have high : value / 16 % 16 = (UInt8.ofNat value).toNat / 16 := by
    rw [UInt8.toNat_ofNat']
    omega
  have low : value % 16 = (UInt8.ofNat value).toNat % 16 := by
    rw [UInt8.toNat_ofNat']
    omega
  rw [digits, digits, shifted, high, low, encodeByte, List.append_assoc]
  rfl

theorem encodeBytes_push (b : ByteArray) (byte : UInt8) :
    encodeBytes (b.push byte).data.toList = encodeBytes b.data.toList ++ encodeByte byte := by
  have pushed : (b.push byte).data.toList = b.data.toList ++ [byte] := Array.toList_push
  rw [pushed, encodeBytes, List.flatMap_append, List.flatMap_singleton, encodeBytes]

/-- A number is written as the bytes of the number are. -/
theorem encodeBytes_pushNumber (b : ByteArray) (value n : Nat) :
    encodeBytes (Bytes.pushNumber b value n).data.toList =
      encodeBytes b.data.toList ++ digits value (2 * n) := by
  induction n generalizing value with
  | zero => simp [Bytes.pushNumber, digits]
  | succ n ih =>
      rw [Bytes.pushNumber_succ, encodeBytes_push, ih, Nat.mul_succ, digits_add_two,
        List.append_assoc]

theorem markedWidth_eq (n value : Nat) :
    markedWidth (2 * n) value = marked (Bytes.ofNumber n value) := by
  rw [markedWidth, marked, encode, Bytes.ofNumber, encodeBytes_pushNumber]
  rfl

theorem decode_marked (b : ByteArray) : decode (marked b) = .ok b := by
  rw [← Spelling.text_usual, Spelling.decode_text]

theorem decode_markedWidth (n value : Nat) :
    decode (markedWidth (2 * n) value) = .ok (Bytes.ofNumber n value) := by
  rw [markedWidth_eq, decode_marked]

/-- The text of any byte string is read back: whatever blanks are around it, however many marks are
before its digits, and in whichever case these are.  So is the text of a word, which may be a hash,
and that of an address, as its 32 or 20 bytes, the most significant first. -/
theorem decode_undoes_encode :
    (∀ (b : ByteArray) (s : Spelling b), decode s.text = .ok b) ∧
      (∀ b : ByteArray, decode (marked b) = .ok b) ∧
      (∀ w : Word, decode (markedWidth 64 w.toNat) = .ok (Bytes.ofWord w.toNat) ∧
        (Bytes.ofWord w.toNat).size = 32 ∧ Bytes.toNumber (Bytes.ofWord w.toNat) = w.toNat) ∧
      ∀ a : Address, decode a.toHex = .ok a.toBytes ∧
        a.toBytes.size = 20 ∧ Bytes.toNumber a.toBytes = a.toNat := by
  refine ⟨fun b s => s.decode_text, decode_marked, ?_, ?_⟩
  · intro w
    rw [Bytes.ofWord_eq]
    exact ⟨decode_markedWidth 32 w.toNat, Bytes.size_ofNumber 32 _,
      Bytes.toNumber_ofNumber w.isLt⟩
  · intro a
    exact ⟨decode_markedWidth 20 a.toNat, Bytes.size_ofNumber 20 _,
      Bytes.toNumber_ofNumber a.isLt⟩

/-- Two marks, capital letters, and blanks of several kinds around them. -/
def deadBeef : Spelling ⟨#[0xde, 0xad, 0xbe, 0xef]⟩ :=
  { (Spelling.usual _).capitals with
    before := [' ', '\t']
    marks := 2
    after := ['\n', Char.ofNat 0x3000]
    opens := by simp; decide
    closes := by simp; decide }

theorem deadBeef_decoded : deadBeef.text = " \t0x0xDEADBEEF\n\u3000" ∧
    decode deadBeef.text = .ok ⟨#[0xde, 0xad, 0xbe, 0xef]⟩ :=
  ⟨by decide +kernel, decode_undoes_encode.1 _ deadBeef⟩

end Hex

end EvmHarness
