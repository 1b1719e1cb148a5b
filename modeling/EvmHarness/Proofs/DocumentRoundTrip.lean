import EvmHarness.Proofs.TextRoundTrip
import Mathlib.Tactic.SplitIfs
set_option autoImplicit false

/-!
# Documents are read back

A table of plain keys, none of them twice, is read back from the document that is written of it
(`read?_write`), as long as its values are texts, flags and integers that a document can hold.
An integer is written in decimal digits, without a leading zero, so that none of the marks of
another base can be seen in it; a value ends where its line does.
-/

namespace EvmHarness.Toml

/-! ## Integers -/

theorem digit?_digitChar {d : Nat} (h : d < 10) : digit? 10 d.digitChar = some d := by
  revert d
  decide +kernel

/-- One digit more at the end of digits without underscores. -/
theorem moreDigits?_concat {base value : Nat} {cs : List Char} {c : Char}
    (plain : '_' ∉ cs) (hc : c ≠ '_') :
    moreDigits? base value (cs ++ [c]) =
      (moreDigits? base value cs).bind fun n => (digit? base c).map (n * base + ·) := by
  induction cs generalizing value with
  | nil =>
    simp only [List.nil_append, moreDigits?, Option.bind_some]
    cases digit? base c <;> rfl
  | cons d cs ih =>
    simp only [List.mem_cons, not_or] at plain
    have hd : d ≠ '_' := Ne.symm plain.1
    rw [List.cons_append, moreDigits?, moreDigits?]
    · cases digit? base d with
      | none => rfl
      | some n => exact ih plain.2
    · simp [hd]
    · simp [hd]

theorem digits?_concat {base : Nat} {cs : List Char} {c : Char} (nonempty : cs ≠ [])
    (plain : '_' ∉ cs) (hc : c ≠ '_') :
    digits? base (cs ++ [c]) =
      (digits? base cs).bind fun n => (digit? base c).map (n * base + ·) := by
  cases cs with
  | nil => exact absurd rfl nonempty
  | cons d cs =>
    simp only [List.mem_cons, not_or] at plain
    rw [List.cons_append, digits?, digits?]
    cases digit? base d with
    | none => rfl
    | some n => exact moreDigits?_concat plain.2 hc

/-- The decimal digits of a number are read back. -/
theorem digits?_toDigits (n : Nat) : digits? 10 (Nat.toDigits 10 n) = some n := by
  induction n using Nat.strongRecOn with
  | ind n ih =>
    by_cases h : n < 10
    · simp [Nat.toDigits_of_lt_base h, digits?, moreDigits?, digit?_digitChar h]
    · have last : n % 10 < 10 := Nat.mod_lt n (by decide)
      have digit := digit?_digitChar last
      have hlast : (n % 10).digitChar ≠ '_' := by
        intro h
        rw [h] at digit
        exact absurd digit (by simp [digit?, Hex.digitValue?])
      rw [Nat.toDigits_of_base_le (by decide) (Nat.not_lt.1 h),
        digits?_concat Nat.toDigits_ne_nil Nat.underscore_not_in_toDigits hlast,
        ih (n / 10) (by omega), digit]
      exact congrArg some (Nat.div_add_mod' n 10)

/-- Only the digits of zero begin with the digit zero. -/
theorem head?_toDigits {n : Nat} (h : (Nat.toDigits 10 n).head? = some '0') : n = 0 := by
  induction n using Nat.strongRecOn with
  | ind n ih =>
    by_cases hn : n < 10
    · simpa [Nat.toDigits_of_lt_base hn] using h
    · rw [Nat.toDigits_of_base_le (by decide) (Nat.not_lt.1 hn),
        List.head?_append, Option.or_of_isSome (by simp [Nat.toDigits_ne_nil])] at h
      have := ih (n / 10) (by omega) h
      omega

/-- Decimal digits have no leading zero, so that they are read back as a whole number. -/
theorem whole?_toDigits (n : Nat) : whole? (Nat.toDigits 10 n) = some n := by
  by_cases h : n = 0
  · subst h
    rfl
  · have noZero : ∀ rest, Nat.toDigits 10 n ≠ '0' :: rest := fun rest heq =>
      h (head?_toDigits (by rw [heq]; rfl))
    rw [whole?, digits?_toDigits]
    · exact noZero []
    · exact noZero

/-- A character of decimal digits is a digit. -/
theorem isDigit_of_mem {c : Char} {n : Nat} (h : c ∈ Nat.toDigits 10 n) : c.isDigit :=
  Nat.isDigit_of_mem_toDigits (by decide) (by decide) h

/-- The mark of a base and the signs are no decimal digits. -/
theorem not_mem_toDigits {c : Char} (h : c.isDigit = false) (n : Nat) :
    c ∉ Nat.toDigits 10 n := by
  intro hc
  rw [isDigit_of_mem hc] at h
  exact absurd h (by decide)

theorem dropSign_toDigits (n : Nat) : dropSign (Nat.toDigits 10 n) = Nat.toDigits 10 n := by
  have noPlus : '+' ∉ Nat.toDigits 10 n := not_mem_toDigits (by decide) n
  have noMinus : '-' ∉ Nat.toDigits 10 n := not_mem_toDigits (by decide) n
  unfold dropSign
  split
  · simp_all
  · simp_all
  · rfl

/-- The digits of a number are taken neither for a base nor for a sign. -/
theorem integer?_toDigits {n : Nat} (h : Value.holdsInteger n) :
    integer? (Nat.toDigits 10 n) = some (n : Int) := by
  have noHex : 'x' ∉ Nat.toDigits 10 n := not_mem_toDigits (by decide) n
  have noOctal : 'o' ∉ Nat.toDigits 10 n := not_mem_toDigits (by decide) n
  have noBinary : 'b' ∉ Nat.toDigits 10 n := not_mem_toDigits (by decide) n
  have noMinus : '-' ∉ Nat.toDigits 10 n := not_mem_toDigits (by decide) n
  unfold integer?
  split
  · simp_all
  · simp_all
  · simp_all
  · simp_all
  · simp [dropSign_toDigits, whole?_toDigits, h]

/-- An integer that a document can hold is read back from its digits. -/
theorem integer?_toString {n : Int} (h : Value.holdsInteger n) :
    integer? (toString n).toList = some n := by
  cases n with
  | ofNat n =>
    have written : (toString (Int.ofNat n)).toList = Nat.toDigits 10 n := by
      simp [toString, Int.repr]
    rw [written]
    exact integer?_toDigits h
  | negSucc n =>
    have written : (toString (Int.negSucc n)).toList = '-' :: Nat.toDigits 10 (n + 1) := by
      simp [toString, Int.repr]
    have value : -((n : Int) + 1) = Int.negSucc n := (Int.negSucc_eq n).symm
    rw [written]
    simp [integer?, whole?_toDigits, value, h]

/-! ## Values -/

namespace Value

/-- Whether a value is read back as it is written: a number with a fraction is kept as it was
found, and an integer has to be one that a document can hold. -/
def IsKept : Value → Prop
  | .text _ => True
  | .integer n => holdsInteger n
  | .boolean _ => True
  | .decimal _ => False

end Value

/-- A word ends at the first character that cannot be part of one. -/
theorem span_word {part : Char → Bool} {word : List Char} {stop : Char}
    (h : ∀ c ∈ word, part c) (hstop : part stop = false) (rest : List Char) :
    (word ++ stop :: rest).takeWhile part = word ∧
      (word ++ stop :: rest).dropWhile part = stop :: rest := by
  rw [List.takeWhile_append_of_pos h, List.dropWhile_append_of_pos h]
  simp [hstop]

/-- A value that is a word ends where the line does. -/
theorem readValue_word {word : List Char} (rest : List Char) (h : ∀ c ∈ word, isWordChar c) :
    readValue (word ++ '\n' :: rest) = (Value.ofWord? word).map (·, '\n' :: rest) := by
  have noText : readText (word ++ '\n' :: rest) = none := by
    cases word with
    | nil => simp [readText]
    | cons c word =>
      have hc : isWordChar c := h c List.mem_cons_self
      have noQuote : c ≠ '"' := by rintro rfl; exact absurd hc (by decide)
      have noApostrophe : c ≠ '\'' := by rintro rfl; exact absurd hc (by decide)
      simp [readText, *]
  have stops : isWordChar '\n' = false := by decide
  obtain ⟨taken, left⟩ := span_word h stops rest
  simp [readValue, noText, taken, left]

theorem isWordChar_of_isDigit {c : Char} (h : c.isDigit) : isWordChar c := by
  simp [isWordChar, isKeyChar, Char.isAlphanum, h]

/-- The characters of an integer are those of a word. -/
theorem isWordChar_of_mem_toString {n : Int} {c : Char} (h : c ∈ (toString n).toList) :
    isWordChar c := by
  cases n with
  | ofNat n =>
    have hc : c ∈ Nat.toDigits 10 n := by simpa [toString, Int.repr] using h
    exact isWordChar_of_isDigit (isDigit_of_mem hc)
  | negSucc n =>
    have hc : c = '-' ∨ c ∈ Nat.toDigits 10 (n + 1) := by simpa [toString, Int.repr] using h
    obtain rfl | hc := hc
    · decide
    · exact isWordChar_of_isDigit (isDigit_of_mem hc)

/-- A word that is an integer is no flag. -/
theorem Value.ofWord?_of_integer {word : List Char} {n : Int} (h : integer? word = some n) :
    Value.ofWord? word = some (.integer n) := by
  have noTrue : word ≠ "true".toList := by
    rintro rfl
    rw [show integer? "true".toList = none by decide +kernel] at h
    cases h
  have noFalse : word ≠ "false".toList := by
    rintro rfl
    rw [show integer? "false".toList = none by decide +kernel] at h
    cases h
  simp only [Value.ofWord?, if_neg noTrue, if_neg noFalse, h]

/-- A value is read back from what is written of it, at the end of a line. -/
theorem readValue_write {value : Value} (h : value.IsKept) (rest : List Char) :
    readValue (value.write ++ '\n' :: rest) = some (value, '\n' :: rest) := by
  cases value with
  | text content => simp [readValue, Value.write, readText_writeText]
  | integer n =>
    rw [Value.write, readValue_word rest fun c => isWordChar_of_mem_toString,
      Value.ofWord?_of_integer (integer?_toString h)]
    rfl
  | boolean b =>
    cases b with
    | true =>
      rw [Value.write, readValue_word rest (List.all_eq_true.1 (by decide +kernel))]
      rfl
    | false =>
      rw [Value.write, readValue_word rest (List.all_eq_true.1 (by decide +kernel))]
      rfl
  | decimal written => exact absurd h id

/-- A word does not begin with a space. -/
theorem dropWhile_isSpace_word {word : List Char} (nonempty : word ≠ [])
    (h : ∀ c ∈ word, isWordChar c) (rest : List Char) :
    (word ++ rest).dropWhile isSpace = word ++ rest := by
  cases word with
  | nil => exact absurd rfl nonempty
  | cons c word =>
    have hc : isWordChar c := h c List.mem_cons_self
    have noBlank : c ≠ ' ' := by rintro rfl; exact absurd hc (by decide)
    have noTab : c ≠ '\t' := by rintro rfl; exact absurd hc (by decide)
    simp [isSpace, noBlank, noTab]

theorem toString_ne_nil (n : Int) : (toString n).toList ≠ [] := by
  cases n with
  | ofNat n => simp [toString, Int.repr, Nat.toDigits_ne_nil]
  | negSucc n => simp [toString, Int.repr]

/-- What is written of a value does not begin with a space. -/
theorem dropWhile_isSpace_write {value : Value} (h : value.IsKept) (rest : List Char) :
    (value.write ++ rest).dropWhile isSpace = value.write ++ rest := by
  cases value with
  | text content =>
    simp only [Value.write, writeText, Style.opening]
    split_ifs <;> simp [List.replicate, isSpace]
  | integer n =>
    exact dropWhile_isSpace_word (toString_ne_nil n) (fun c => isWordChar_of_mem_toString) rest
  | boolean b => cases b <;> rfl
  | decimal written => exact absurd h id

/-! ## Lines -/

/-- Whether a text can stand for a key as it is. -/
def IsPlainKey (key : String) : Prop := key ≠ "" ∧ ∀ c ∈ key.toList, isKeyChar c

instance (key : String) : Decidable (IsPlainKey key) :=
  decidable_of_iff (key ≠ "" ∧ key.toList.all isKeyChar) (by rw [IsPlainKey, List.all_eq_true])

/-- A line that begins with a key begins with a character of one. -/
theorem IsPlainKey.append_ne_cons {key : String} (h : IsPlainKey key) {c : Char}
    (hc : isKeyChar c = false) (more rest : List Char) : key.toList ++ more ≠ c :: rest := by
  intro heq
  cases hk : key.toList with
  | nil => exact h.1 (by simpa using hk)
  | cons d cs =>
    rw [hk, List.cons_append] at heq
    obtain rfl : d = c := (List.cons.inj heq).1
    have hd : isKeyChar d := h.2 d (by rw [hk]; exact List.mem_cons_self)
    rw [hc] at hd
    exact absurd hd (by decide)

/-- The key at the beginning of a line is read up to the blank after it. -/
theorem readKey_plain {key : String} (h : IsPlainKey key) (rest : List Char) :
    readKey (key.toList ++ ' ' :: rest) = some (key, ' ' :: rest) := by
  have stops : isKeyChar ' ' = false := by decide
  obtain ⟨taken, left⟩ := span_word h.2 stops rest
  have nonempty : key.toList ≠ [] := by simpa using h.1
  rw [readKey, taken, left]
  split
  · contradiction
  · rw [String.ofList_toList]

/-- The line of a key and its value. -/
def entryLine (key : String) (value : Value) : List Char :=
  key.toList ++ [' ', '=', ' '] ++ value.write ++ ['\n']

theorem readEntry_write {value : Value} (h : value.IsKept) (key : String) (rest : List Char) :
    readEntry key (' ' :: '=' :: ' ' :: (value.write ++ '\n' :: rest)) =
      some (.entry key value, rest) := by
  have space : isSpace ' ' = true := rfl
  have noSpace : isSpace '=' = false := rfl
  have lineEnd : readLineEnd ('\n' :: rest) = some rest := rfl
  simp [readEntry, space, noSpace, dropWhile_isSpace_write h, readValue_write h, lineEnd]

/-- The line of a key and its value is read back, whatever the next lines are. -/
theorem readStatement_entryLine {key : String} {value : Value} (hkey : IsPlainKey key)
    (hvalue : value.IsKept) (rest : List Char) :
    readStatement (entryLine key value ++ rest) = some (.entry key value, rest) := by
  have nonempty : key.toList ≠ [] := by simpa using hkey.1
  have line : entryLine key value ++ rest =
      key.toList ++ ' ' :: '=' :: ' ' :: (value.write ++ '\n' :: rest) := by
    simp [entryLine]
  have start (more : List Char) : (key.toList ++ more).dropWhile isSpace = key.toList ++ more :=
    dropWhile_isSpace_word nonempty (fun c hc => by simp [isWordChar, hkey.2 c hc]) more
  rw [line, readStatement, start]
  split
  case h_1 heq => exact absurd heq (hkey.append_ne_cons (by decide) _ _)
  case h_2 =>
    rw [readKey_plain hkey]
    exact readEntry_write hvalue key _

/-! ## Documents -/

namespace Table

/-- A table that is read back as it is written: its keys are plain and none comes twice, and its
values are kept. -/
structure IsKept (t : Table) : Prop where
  key : ∀ e ∈ t, IsPlainKey e.1
  value : ∀ e ∈ t, e.2.IsKept
  once : (t.map Prod.fst).Nodup

/-- The lines of a table. -/
def lines (t : Table) : List Statement := t.map fun e => .entry e.1 e.2

theorem write_toList (t : Table) :
    t.write.toList = t.flatMap fun e => entryLine e.1 e.2 := by
  simp [write, entryLine]

end Table

/-- The lines of a table are read back, key by key. -/
theorem readStatements_write {t : Table} (hkey : ∀ e ∈ t, IsPlainKey e.1)
    (hvalue : ∀ e ∈ t, e.2.IsKept) : readStatements t.write.toList = some t.lines := by
  rw [Table.write_toList]
  induction t with
  | nil =>
    rw [readStatements]
    rfl
  | cons e t ih =>
    obtain ⟨key, keys⟩ := List.forall_mem_cons.1 hkey
    obtain ⟨value, values⟩ := List.forall_mem_cons.1 hvalue
    have nonempty : entryLine e.1 e.2 ++ t.flatMap (fun e => entryLine e.1 e.2) ≠ [] := by
      simp [entryLine]
    rw [List.flatMap_cons, readStatements, dif_neg nonempty]
    split
    case h_1 s rest heq =>
      rw [readStatement_entryLine key value] at heq
      cases heq
      rw [ih keys values]
      rfl
    case h_2 heq =>
      rw [readStatement_entryLine key value] at heq
      cases heq

/-- Lines with new keys are added to the table of a document without named tables. -/
theorem foldlM_add?_lines {t : Table} (present : Table)
    (once : ((present ++ t).map Prod.fst).Nodup) :
    t.lines.foldlM Document.add? ⟨present, []⟩ = some ⟨present ++ t, []⟩ := by
  induction t generalizing present with
  | nil => simp [Table.lines]
  | cons e t ih =>
    have new : Table.hasKey present e.1 = false := by
      simp only [Table.hasKey, List.any_eq_false, beq_iff_eq]
      intro e' he' same
      rw [List.map_append, List.nodup_append] at once
      exact once.2.2 e'.1 (List.mem_map_of_mem he') e.1 (by simp) same
    have added : Document.add? ⟨present, []⟩ (.entry e.1 e.2) = some ⟨present ++ [e], []⟩ := by
      simp [Document.add?, new]
    have rest := ih (present ++ [e]) (by simpa using once)
    calc (Table.lines (e :: t)).foldlM Document.add? ⟨present, []⟩
        = (Table.lines t).foldlM Document.add? ⟨present ++ [e], []⟩ := by
          simp [Table.lines, added]
      _ = some ⟨present ++ e :: t, []⟩ := by simpa using rest

/-- What is written of a table does not begin with a mark of the byte order. -/
theorem dropOrderMark_write {t : Table} (hkey : ∀ e ∈ t, IsPlainKey e.1) :
    dropOrderMark t.write.toList = t.write.toList := by
  rw [Table.write_toList]
  cases t with
  | nil => rfl
  | cons e t =>
    have key : IsPlainKey e.1 := hkey e List.mem_cons_self
    unfold dropOrderMark
    split
    case h_1 heq =>
      simp only [List.flatMap_cons, entryLine, List.append_assoc] at heq
      exact absurd heq (key.append_ne_cons (by decide) _ _)
    case h_2 => rfl

/-- A table is read back from the document written of it. -/
theorem read?_write {t : Table} (h : t.IsKept) : Document.read? t.write = some ⟨t, []⟩ := by
  rw [Document.read?, dropOrderMark_write h.key, readStatements_write h.key h.value]
  exact foldlM_add?_lines [] h.once

end EvmHarness.Toml
