import EvmHarness.Proofs.HexRoundTrip
set_option autoImplicit false

/-!
# What is accepted as hexadecimal text

Nearly every text that is read as a byte string is one that could have been written for it: blanks,
marks, and the digits of these bytes in either case.  The exception is a pair of a plus sign and a
digit, which is read as a byte below sixteen.  With the digit zero in the place of each such sign
(`unsigned`) what is read are the digits of the bytes, and nothing else is accepted.
-/

namespace EvmHarness

namespace Text

/-- The blanks that are dropped at the ends are a part of the text. -/
theorem exists_trimBlanks (cs : List Char) :
    ∃ before after, (∀ c ∈ before, isBlank c) ∧ (∀ c ∈ after, isBlank c) ∧
      cs = before ++ trimBlanks cs ++ after := by
  have back : (cs.dropWhile isBlank) =
      trimBlanks cs ++ ((cs.dropWhile isBlank).reverse.takeWhile isBlank).reverse := by
    rw [trimBlanks, ← List.reverse_append, List.takeWhile_append_dropWhile, List.reverse_reverse]
  refine ⟨cs.takeWhile isBlank, ((cs.dropWhile isBlank).reverse.takeWhile isBlank).reverse,
    fun c hc => List.mem_takeWhile_imp hc,
    fun c hc => List.mem_takeWhile_imp (List.mem_reverse.1 hc), ?_⟩
  rw [List.append_assoc, ← back, List.takeWhile_append_dropWhile]

end Text

namespace Hex

/-! ## Digits of bytes -/

/-- The sixteen digits, the letters among them in either case. -/
def hexDigits : List Char := "0123456789abcdefABCDEF".toList

theorem mem_hexDigits {c : Char} {n : Nat} (small : n < 16) (h : c.toLower = digit n) :
    c ∈ hexDigits := by
  have digits : ∀ n < 16, (digit n).toNat < 128 := by decide
  have table : ∀ m < 128, ∀ n < 16, (Char.ofNat m).toLower = digit n →
      Char.ofNat m ∈ hexDigits := by decide +kernel
  have ascii : c.toNat < 128 := ascii_of_toLower (h ▸ digits n small)
  exact forall_ascii (fun c => ∀ n < 16, c.toLower = digit n → c ∈ hexDigits) table ascii n small h

/-- A character has a value just where it is the digit for it, in either case. -/
theorem digitValue?_eq_some_iff {c : Char} {n : Nat} :
    digitValue? c = some n ↔ n < 16 ∧ c.toLower = digit n := by
  refine ⟨fun h => ?_, fun ⟨small, written⟩ => digitValue?_of_toLower small written⟩
  have ascii : c.toNat < 128 :=
    Nat.lt_succ_of_le (UInt32.le_iff_toNat_le.1
      (Char.utf8Size_eq_one_iff.1 (isDigit_of_digitValue? h).narrow))
  have table : ∀ m < 128, ∀ n ∈ digitValue? (Char.ofNat m),
      n < 16 ∧ (Char.ofNat m).toLower = digit n := by decide +kernel
  exact forall_ascii (fun c => ∀ n ∈ digitValue? c, n < 16 ∧ c.toLower = digit n) table ascii n h

/-- The characters are as many digits as the bytes have, and those that are written for them, in
either case. -/
structure WrittenAs (cs : List Char) (b : ByteArray) : Prop where
  length : cs.length = 2 * b.size
  digits : ∀ c ∈ cs, c ∈ hexDigits
  encodes : cs.map Char.toLower = (encode b).toList

theorem spells_cons_iff {c d : Char} {rest : List Char} {b : UInt8} {bytes : List UInt8} :
    Spells (c :: d :: rest) (b :: bytes) ↔ digitValue? c = some (b.toNat / 16) ∧
      digitValue? d = some (b.toNat % 16) ∧ Spells rest bytes := by
  constructor
  · intro h
    obtain ⟨c', d', rest', same, high, low, spells⟩ := h.cons
    obtain ⟨rfl, rfl, rfl⟩ : c = c' ∧ d = d' ∧ rest = rest' := by simpa using same
    exact ⟨high, low, spells⟩
  · rintro ⟨high, low, spells⟩
    show c.toLower :: d.toLower :: rest.map Char.toLower = _
    rw [(digitValue?_eq_some_iff.1 high).2, (digitValue?_eq_some_iff.1 low).2, spells]
    rfl

variable {cs : List Char} {bytes : List UInt8}

theorem Spells.length (h : Spells cs bytes) : cs.length = 2 * bytes.length := by
  induction bytes generalizing cs with
  | nil => rw [h.nil]; rfl
  | cons b bytes ih =>
      obtain ⟨c, d, rest, rfl, -, -, spells⟩ := h.cons
      rw [List.length_cons, List.length_cons, List.length_cons, ih spells]
      omega

theorem Spells.hexDigits (h : Spells cs bytes) : ∀ c ∈ cs, c ∈ hexDigits := by
  intro c hc
  obtain ⟨n, value⟩ := h.exists_value c hc
  obtain ⟨small, written⟩ := digitValue?_eq_some_iff.1 value
  exact mem_hexDigits small written

theorem spells_iff {b : ByteArray} : Spells cs b.data.toList ↔ WrittenAs cs b := by
  have encoded : (encode b).toList = encodeBytes b.data.toList := String.toList_ofList
  constructor
  · intro h
    exact ⟨h.length, h.hexDigits, h.trans encoded.symm⟩
  · intro h
    exact h.encodes.trans encoded

/-! ## Pairs that are read -/

/-- The same pairs with the digit zero in the place of a plus sign that begins one. -/
def unsigned : List Char → List Char
  | c :: d :: rest => (if c = '+' then '0' else c) :: d :: unsigned rest
  | cs => cs

theorem unsigned_of_not_mem (h : '+' ∉ cs) : unsigned cs = cs := by
  induction cs using unsigned.induct with
  | case1 c d rest ih =>
      simp only [List.mem_cons, not_or] at h
      rw [unsigned, if_neg (Ne.symm h.1), ih h.2.2]
  | case2 cs short => rw [unsigned]; exact short

/-- A sign is as wide as the digit in its place. -/
theorem utf8Len_unsigned (cs : List Char) :
    String.utf8Len (unsigned cs) = String.utf8Len cs := by
  induction cs using unsigned.induct with
  | case1 c d rest ih =>
      have first : (if c = '+' then '0' else c).utf8Size = c.utf8Size := by
        split
        · rename_i sign
          rw [sign]
          rfl
        · rfl
      rw [unsigned, String.utf8Len_cons, String.utf8Len_cons, String.utf8Len_cons,
        String.utf8Len_cons, ih, first]
  | case2 cs short => rw [unsigned]; exact short

theorem pairValue?_eq_some_iff {c d : Char} {b : UInt8} :
    pairValue? c d = some b ↔
      digitValue? (if c = '+' then '0' else c) = some (b.toNat / 16) ∧
        digitValue? d = some (b.toNat % 16) := by
  have halves : b.toNat / 16 * 16 + b.toNat % 16 = b.toNat := Nat.div_add_mod' _ _
  have zero : digitValue? '0' = some 0 := by decide
  unfold pairValue?
  cases low : digitValue? d with
  | none => simp
  | some l =>
      have small := (digitValue?_eq_some_iff.1 low).1
      have value {h : Nat} (hh : h < 16) :
          UInt8.ofNat (h * 16 + l) = b ↔ h = b.toNat / 16 ∧ l = b.toNat % 16 := by
        rw [← UInt8.toNat_inj, UInt8.toNat_ofNat']
        omega
      dsimp only
      by_cases sign : c = '+'
      · rw [if_pos sign, if_pos sign, zero, Option.some.injEq, Option.some.injEq,
          Option.some.injEq, ← value (by decide), Nat.zero_mul, Nat.zero_add]
      · rw [if_neg sign, if_neg sign]
        cases high : digitValue? c with
        | none => simp
        | some h =>
            rw [Option.map_some, Option.some.injEq, Option.some.injEq, Option.some.injEq,
              value (digitValue?_eq_some_iff.1 high).1]

/-- What is in a pair that has a value is one byte wide. -/
theorem narrow_of_pairValue? {c d : Char} {b : UInt8} (h : pairValue? c d = some b) :
    c.utf8Size = 1 ∧ d.utf8Size = 1 := by
  obtain ⟨high, low⟩ := pairValue?_eq_some_iff.1 h
  refine ⟨?_, (isDigit_of_digitValue? low).narrow⟩
  split at high
  · rename_i sign
    rw [sign]
    rfl
  · exact (isDigit_of_digitValue? high).narrow

theorem decodePairs_cons_iff {c d : Char} {rest : List Char} :
    decodePairs (c :: d :: rest) = .ok bytes ↔
      ∃ b bytes', bytes = b :: bytes' ∧ pairValue? c d = some b ∧
        decodePairs rest = .ok bytes' := by
  constructor
  · intro h
    rw [decodePairs] at h
    split at h
    · split at h
      · split at h
        · cases h
        · rename_i b value
          cases read : decodePairs rest with
          | error fault => rw [read] at h; cases h
          | ok bytes' =>
              rw [read] at h
              exact ⟨b, bytes', (Except.ok.inj h).symm, value, rfl⟩
      · cases h
    · split at h
      · cases h
      · cases h
  · rintro ⟨b, bytes', rfl, value, read⟩
    obtain ⟨first, second⟩ := narrow_of_pairValue? value
    rw [decodePairs, if_pos first, if_pos second, value, read]
    rfl

/-- The pairs that are read are those of the digits, but for signs. -/
theorem decodePairs_eq_ok_iff : decodePairs cs = .ok bytes ↔ Spells (unsigned cs) bytes := by
  induction cs using unsigned.induct generalizing bytes with
  | case1 c d rest ih =>
      rw [decodePairs_cons_iff, unsigned]
      constructor
      · rintro ⟨b, bytes', rfl, value, read⟩
        obtain ⟨high, low⟩ := pairValue?_eq_some_iff.1 value
        exact spells_cons_iff.2 ⟨high, low, ih.1 read⟩
      · intro h
        cases bytes with
        | nil => exact absurd h.nil nofun
        | cons b bytes' =>
            obtain ⟨high, low, spells⟩ := spells_cons_iff.1 h
            exact ⟨b, bytes', rfl, pairValue?_eq_some_iff.2 ⟨high, low⟩, ih.2 spells⟩
  | case2 cs short =>
      -- no pair is left: nothing at all, or half a pair, which spells nothing
      match cs, short with
      | [], _ =>
          constructor
          · intro h
            rw [← Except.ok.inj h]
            rfl
          · intro h
            cases bytes with
            | nil => rfl
            | cons b bytes => exact absurd h nofun
      | [c], _ =>
          constructor
          · exact fun h => absurd h nofun
          · intro h
            have odd : [c].length = 2 * bytes.length := h.length
            simp only [List.length_singleton] at odd
            omega
      | c :: d :: rest, short => exact absurd rfl (short c d rest)

/-! ## Texts that are read -/

theorem decode_eq_ok_iff {text : String} {b : ByteArray} :
    decode text = .ok b ↔ WrittenAs (unsigned (payload text)) b := by
  rw [← spells_iff, ← decodePairs_eq_ok_iff]
  constructor
  · intro h
    unfold decode at h
    dsimp only at h
    split at h
    · cases h
    · split at h
      · rename_i bytes read
        rw [← Except.ok.inj h]
        exact read
      · cases h
      · cases h
  · intro read
    have wide : (String.ofList (payload text)).utf8ByteSize = 2 * b.data.toList.length := by
      rw [String.utf8ByteSize_ofList, ← utf8Len_unsigned, ← String.utf8ByteSize_ofList,
        (decodePairs_eq_ok_iff.1 read).size]
    unfold decode
    dsimp only
    rw [if_neg (by omega), read]

theorem exists_dropMarks (cs : List Char) : ∃ n, cs = marks n ++ dropMarks cs := by
  induction cs using dropMarks.induct with
  | case1 rest ih =>
      obtain ⟨n, split⟩ := ih
      exact ⟨n + 1, congrArg (['0', 'x'] ++ ·) split⟩
  | case2 cs unmarked => exact ⟨0, by rw [dropMarks]; exacts [rfl, unmarked]⟩

/-- What is around the characters that must be digits. -/
theorem exists_payload (text : String) :
    ∃ before n after, (∀ c ∈ before, Text.isBlank c) ∧ (∀ c ∈ after, Text.isBlank c) ∧
      text.toList = before ++ (marks n ++ payload text) ++ after := by
  obtain ⟨before, after, opens, closes, trimmed⟩ := Text.exists_trimBlanks text.toList
  obtain ⟨n, unmarked⟩ := exists_dropMarks (Text.trimBlanks text.toList)
  exact ⟨before, n, after, opens, closes, by rw [payload, ← unmarked, ← trimmed]⟩

theorem mem_of_mem_payload {text : String} {c : Char} (h : c ∈ payload text) :
    c ∈ text.toList := by
  obtain ⟨before, n, after, -, -, split⟩ := exists_payload text
  rw [split]
  exact List.mem_append_left _ (List.mem_append_right _ (List.mem_append_right _ h))

/-- No plus sign is around the digits, and none of them is one. -/
theorem WrittenAs.plain {text : String} {b : ByteArray} (h : WrittenAs (payload text) b) :
    '+' ∉ text.toList := by
  have notBlank : Text.isBlank '+' = false := by decide
  have foreign : '+' ∉ hexDigits := by decide +kernel
  obtain ⟨before, n, after, opens, closes, split⟩ := exists_payload text
  rw [split, List.mem_append, List.mem_append, List.mem_append]
  rintro ((sign | sign | sign) | sign)
  · simpa [notBlank] using opens _ sign
  · exact absurd (mem_marks sign) (by decide)
  · exact foreign (h.digits _ sign)
  · simpa [notBlank] using closes _ sign

theorem decode_plain_iff {text : String} {b : ByteArray} :
    decode text = .ok b ∧ '+' ∉ text.toList ↔ WrittenAs (payload text) b := by
  have same (plain : '+' ∉ payload text) : unsigned (payload text) = payload text :=
    unsigned_of_not_mem plain
  constructor
  · rintro ⟨read, plain⟩
    rw [← same fun sign => plain (mem_of_mem_payload sign)]
    exact decode_eq_ok_iff.1 read
  · intro h
    have plain := h.plain
    refine ⟨decode_eq_ok_iff.2 ?_, plain⟩
    rw [same fun sign => plain (mem_of_mem_payload sign)]
    exact h

/-- A text is accepted just where what is left of it without blanks and marks are the digits of
the bytes, in either case, but for plus signs in the place of a zero that begins a pair.  Without
such a sign these are the digits themselves, and the text is one of the ways to write the bytes. -/
theorem accepts_digits_and_signs (text : String) (b : ByteArray) :
    (decode text = .ok b ↔ WrittenAs (unsigned (payload text)) b) ∧
      (decode text = .ok b ∧ '+' ∉ text.toList ↔ WrittenAs (payload text) b) ∧
      (decode text = .ok b ∧ '+' ∉ text.toList ↔ ∃ s : Spelling b, s.text = text) := by
  refine ⟨decode_eq_ok_iff, decode_plain_iff, fun read => ?_, ?_⟩
  · have written := decode_plain_iff.1 read
    obtain ⟨before, n, after, opens, closes, split⟩ := exists_payload text
    refine ⟨⟨before, n, payload text, after, opens, written.encodes, closes⟩, ?_⟩
    rw [Spelling.text, ← split, String.ofList_toList]
  · rintro ⟨s, rfl⟩
    rw [decode_plain_iff, s.payload_text, ← spells_iff]
    exact s.spells_digits

/-- A sign and a digit are accepted, although a sign is no digit. -/
theorem sign_accepted : decode "+f" = .ok ⟨#[0x0f]⟩ ∧ payload "+f" = ['+', 'f'] ∧
    '+' ∉ hexDigits ∧ ¬ WrittenAs (payload "+f") ⟨#[0x0f]⟩ := by
  have left : payload "+f" = ['+', 'f'] := by decide +kernel
  have foreign : '+' ∉ hexDigits := by decide +kernel
  refine ⟨by decide +kernel, left, foreign, fun written => ?_⟩
  exact foreign (written.digits '+' (by rw [left]; exact List.mem_cons_self))

end Hex

end EvmHarness
