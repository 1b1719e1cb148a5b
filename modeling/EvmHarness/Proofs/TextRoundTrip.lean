import EvmHarness.Toml.Lines
set_option autoImplicit false

/-!
# Texts are read back

Whatever the characters of a text are, reading what has been written of it gives the text again
and stops behind its closing marks (`readText_writeText`).  The two ways of writing are looked at
one by one: between quotes every character is read back from what it is escaped to, and between
apostrophes, which are chosen only where the text cannot end them, every character is itself.
-/

namespace EvmHarness.Toml

/-! ## Characters between quotes -/

/-- A character that is no plain one is one of the first 128. -/
theorem toNat_lt_of_not_plain {c : Char} (h : isPlain c = false) : c.toNat < 128 := by
  have hc : c ≠ '\t' ∧ (' ' ≤ c → c = '\x7f') := by simpa [isPlain] using h
  by_cases hle : ' ' ≤ c
  · rw [hc.2 hle]
    decide
  · have hlt : c.toNat < ' '.toNat := Nat.lt_of_not_le hle
    exact Nat.lt_trans hlt (by decide)

/-- The four digits of a character that is no plain one are read back. -/
theorem ofHexDigits?_of_not_plain {c : Char} (h : isPlain c = false) :
    ofHexDigits? ((Hex.digits c.toNat 4).map Char.toUpper) = some c := by
  have table : ∀ n < 128, ofHexDigits? ((Hex.digits n 4).map Char.toUpper) =
      some (Char.ofNat n) := by decide +kernel
  rw [table c.toNat (toNat_lt_of_not_plain h), Char.ofNat_toNat]

/-- A character between quotes stands there as a letter after a backslash, as four digits, or as
itself. -/
theorem escape_cases (ownLine : Bool) (c : Char) :
    (∃ letter, escape ownLine c = ['\\', letter] ∧ escaped? letter = some c) ∨
    (∃ a b d e, escape ownLine c = ['\\', 'u', a, b, d, e] ∧ ofHexDigits? [a, b, d, e] = some c) ∨
    (escape ownLine c = [c] ∧ c ≠ '"' ∧ c ≠ '\\' ∧ c ≠ '\r' ∧
      (isPlain c ∨ ownLine ∧ c = '\n')) := by
  by_cases hb : c = '\x08'
  · exact .inl ⟨'b', by simp [escape, hb], by simp [escaped?, hb]⟩
  by_cases ht : c = '\t'
  · exact .inl ⟨'t', by simp [escape, ht], by simp [escaped?, ht]⟩
  by_cases hn : c = '\n'
  · cases ownLine with
    | true => exact .inr (.inr (by simp [escape, hn]))
    | false => exact .inl ⟨'n', by simp [escape, hn], by simp [escaped?, hn]⟩
  by_cases hf : c = '\x0c'
  · exact .inl ⟨'f', by simp [escape, hf], by simp [escaped?, hf]⟩
  by_cases hr : c = '\r'
  · exact .inl ⟨'r', by simp [escape, hr], by simp [escaped?, hr]⟩
  by_cases hq : c = '"' ∨ c = '\\'
  · exact .inl ⟨c, by simp [escape, hb, ht, hn, hf, hr, hq], by
      obtain rfl | rfl := hq <;> rfl⟩
  · cases hp : isPlain c with
    | true => exact .inr (.inr (by simp_all [escape]))
    | false =>
      have written : escape ownLine c =
          '\\' :: 'u' :: (Hex.digits c.toNat 4).map Char.toUpper := by
        simp [escape, hb, ht, hn, hf, hr, hq, hp]
      exact .inr (.inl ⟨_, _, _, _, written, ofHexDigits?_of_not_plain hp⟩)

theorem readQuoted_escape (c : Char) (rest : List Char) :
    readQuoted (escape false c ++ rest) = (readQuoted rest).map (before c) := by
  obtain ⟨letter, written, read⟩ | ⟨a, b, d, e, written, read⟩ | ⟨written, hq, hs, -, hp⟩ :=
    escape_cases false c
  · have hu : letter ≠ 'u' := by rintro rfl; simp [escaped?] at read
    simp [written, readQuoted, read, hu]
  · simp [written, readQuoted, read]
  · have plain : isPlain c = true := by simpa using hp
    simp [readQuoted, *]

theorem readQuotedLines_escape (c : Char) (rest : List Char) :
    readQuotedLines (escape true c ++ rest) = (readQuotedLines rest).map (before c) := by
  obtain ⟨letter, written, read⟩ | ⟨a, b, d, e, written, read⟩ | ⟨written, hq, hs, hr, hp⟩ :=
    escape_cases true c
  · have hu : letter ≠ 'u' := by rintro rfl; simp [escaped?] at read
    simp [written, readQuotedLines, read, hu]
  · simp [written, readQuotedLines, read]
  · have plain : isPlain c = true ∨ c = '\n' := by simpa using hp
    simp [written, readQuotedLines, hq, hs, hr, plain]

/-! ## Texts -/

theorem readQuoted_escaped (cs rest : List Char) :
    readQuoted (cs.flatMap (escape false) ++ '"' :: rest) = some (cs, rest) := by
  induction cs with
  | nil => simp [readQuoted]
  | cons c cs ih =>
    rw [List.flatMap_cons, List.append_assoc, readQuoted_escape, ih]
    rfl

theorem readQuotedLines_escaped (cs rest : List Char) :
    readQuotedLines (cs.flatMap (escape true) ++ '"' :: '"' :: '"' :: '\n' :: rest) =
      some (cs, '\n' :: rest) := by
  induction cs with
  | nil => simp [readQuotedLines]
  | cons c cs ih =>
    rw [List.flatMap_cons, List.append_assoc, readQuotedLines_escape, ih]
    rfl

theorem readVerbatim_plain {cs : List Char} (rest : List Char)
    (h : ∀ c ∈ cs, isPlain c ∧ c ≠ '\'') :
    readVerbatim (cs ++ '\'' :: rest) = some (cs, rest) := by
  induction cs with
  | nil => simp [readVerbatim]
  | cons c cs ih =>
    obtain ⟨⟨plain, mark⟩, later⟩ := List.forall_mem_cons.1 h
    have more := ih later
    simp [readVerbatim, before, *]

/-- A character of a text of several lines is read unless it begins the closing marks. -/
theorem readVerbatimLines_cons {c : Char} {cs : List Char} (plain : isPlain c ∨ c = '\n')
    (inside : c = '\'' → ¬['\'', '\''] <+: cs) :
    readVerbatimLines (c :: cs) = (readVerbatimLines cs).map (before c) := by
  have notReturn : c ≠ '\r' := by rintro rfl; revert plain; decide
  rw [readVerbatimLines, if_pos plain]
  · rintro rest hc rfl
    exact inside hc ⟨_, rfl⟩
  · rintro rest hc rfl
    exact inside hc ⟨_, rfl⟩
  · rintro rest hc rfl
    exact inside hc ⟨_, rfl⟩
  · rintro rest hc rfl
    exact notReturn hc

/-- The rest of a text with no three apostrophes in a row has none either. -/
theorem hasTripleApostrophe_of_cons {c : Char} {cs : List Char}
    (h : Style.hasTripleApostrophe (c :: cs) = false) :
    Style.hasTripleApostrophe cs = false := by
  unfold Style.hasTripleApostrophe at h
  grind

/-- An apostrophe of a text is not the first of three where the text has no three in a row and
does not end in one, whatever follows. -/
theorem not_closing {cs rest : List Char} (triple : Style.hasTripleApostrophe ('\'' :: cs) = false)
    (last : ('\'' :: cs).getLast? ≠ some '\'') : ¬['\'', '\''] <+: cs ++ rest := by
  match cs, triple, last with
  | [], _, last => exact absurd rfl last
  | [d], _, last =>
    have hd : d ≠ '\'' := by simpa using last
    simp [List.cons_prefix_cons, hd.symm]
  | d :: e :: _, triple, _ =>
    rintro ⟨_, h⟩
    obtain ⟨rfl, rfl, -⟩ : '\'' = d ∧ '\'' = e ∧ _ := by simpa using h
    simp [Style.hasTripleApostrophe] at triple

/-- Apostrophes in a text of several lines are read as part of it, unless there are three in a row
or it ends in one. -/
theorem readVerbatimLines_plain {cs : List Char} (rest : List Char)
    (plain : ∀ c ∈ cs, isPlain c ∨ c = '\n') (triple : Style.hasTripleApostrophe cs = false)
    (last : cs.getLast? ≠ some '\'') :
    readVerbatimLines (cs ++ '\'' :: '\'' :: '\'' :: '\n' :: rest) = some (cs, '\n' :: rest) := by
  induction cs with
  | nil => simp [readVerbatimLines]
  | cons c cs ih =>
    obtain ⟨here, later⟩ := List.forall_mem_cons.1 plain
    have more := ih later (hasTripleApostrophe_of_cons triple) fun h =>
      last (by simp [List.getLast?_cons, h])
    have inside (hc : c = '\'') : ¬['\'', '\''] <+: cs ++ '\'' :: '\'' :: '\'' :: '\n' :: rest := by
      subst hc
      exact not_closing triple last
    rw [List.cons_append, readVerbatimLines_cons here inside, more]
    rfl

/-- One quote begins a text of one line, unless two more follow. -/
theorem readText_quote {cs : List Char} (h : ¬['"', '"'] <+: cs) :
    readText ('"' :: cs) = readQuoted cs := by
  rw [readText]
  · rintro rest rfl
    exact h ⟨_, rfl⟩

/-- One apostrophe begins a text of one line, unless two more follow. -/
theorem readText_apostrophe {cs : List Char} (h : ¬['\'', '\''] <+: cs) :
    readText ('\'' :: cs) = readVerbatim cs := by
  rw [readText]
  · rintro rest rfl
    exact h ⟨_, rfl⟩

/-- The characters between quotes do not begin with the closing one. -/
theorem not_closing_escaped (ownLine : Bool) (cs rest : List Char) :
    ¬['"', '"'] <+: cs.flatMap (escape ownLine) ++ '"' :: '\n' :: rest := by
  cases cs with
  | nil => simp [List.cons_prefix_cons]
  | cons c cs =>
    obtain ⟨letter, written, -⟩ | ⟨a, b, d, e, written, -⟩ | ⟨written, hq, -⟩ :=
      escape_cases ownLine c
    · simp [written, List.cons_prefix_cons]
    · simp [written, List.cons_prefix_cons]
    · simp [written, List.cons_prefix_cons, hq.symm]

namespace Style

/-- What makes a text stand between apostrophes. -/
theorem verbatim_iff (cs : List Char) : (of cs).verbatim ↔
    '\\' ∈ cs ∧ (∀ c ∈ cs, isPlain c ∨ c = '\n') ∧ hasTripleApostrophe cs = false ∧
      cs.getLast? ≠ some '\'' := by
  simp [of, and_assoc]

end Style

/-- A text between single apostrophes has none. -/
theorem not_closing_of_not_mem {cs : List Char} (rest : List Char) (nonempty : cs ≠ [])
    (noMark : '\'' ∉ cs) : ¬['\'', '\''] <+: cs ++ rest := by
  cases cs with
  | nil => exact absurd rfl nonempty
  | cons c cs =>
    simp only [List.mem_cons, not_or] at noMark
    simp [List.cons_prefix_cons, noMark.1]

/-- A text without line breaks does not begin with one. -/
theorem dropLineBreak_append {cs : List Char} (rest : List Char) (nonempty : cs ≠ [])
    (plain : ∀ c ∈ cs, isPlain c) : dropLineBreak (cs ++ rest) = cs ++ rest := by
  cases cs with
  | nil => exact absurd rfl nonempty
  | cons c cs =>
    have hc : isPlain c := plain c List.mem_cons_self
    have hn : c ≠ '\n' := by rintro rfl; exact absurd hc (by decide)
    have hr : c ≠ '\r' := by rintro rfl; exact absurd hc (by decide)
    simp [dropLineBreak, *]

/-- A text is read back from what is written of it, at the end of a line. -/
theorem readText_writeText (text : String) (rest : List Char) :
    readText (writeText text ++ '\n' :: rest) = some (text.toList, '\n' :: rest) := by
  unfold writeText
  generalize text.toList = cs
  have htripled : (Style.of cs).tripled =
      ((Style.of cs).ownLine || ((Style.of cs).verbatim && cs.contains '\'')) := rfl
  have hown : (Style.of cs).ownLine = cs.contains '\n' := rfl
  cases hv : (Style.of cs).verbatim with
  | false =>
    cases hl : (Style.of cs).ownLine with
    | false =>
      have single := readText_quote (not_closing_escaped false cs rest)
      simpa [Style.opening, Style.closing, htripled, hv, hl, readQuoted_escaped] using single
    | true =>
      simp [Style.opening, Style.closing, htripled, hv, hl, readText, dropLineBreak,
        readQuotedLines_escaped]
  | true =>
    obtain ⟨backslash, plain, triple, last⟩ := (Style.verbatim_iff cs).1 hv
    have nonempty : cs ≠ [] := List.ne_nil_of_mem backslash
    cases hl : (Style.of cs).ownLine with
    | true =>
      simp [Style.opening, Style.closing, htripled, hv, hl, readText, dropLineBreak,
        readVerbatimLines_plain rest plain triple last]
    | false =>
      have oneLine : '\n' ∉ cs := by simpa [hown] using hl
      have allPlain : ∀ c ∈ cs, isPlain c := fun c hc =>
        (plain c hc).resolve_right fun h => oneLine (h ▸ hc)
      cases ha : cs.contains '\'' with
      | false =>
        have noMark : '\'' ∉ cs := by simpa using ha
        have single := readText_apostrophe (not_closing_of_not_mem ('\'' :: '\n' :: rest)
          nonempty noMark)
        have read := readVerbatim_plain ('\n' :: rest) fun c hc =>
          ⟨allPlain c hc, fun h => noMark (h ▸ hc)⟩
        simpa [Style.opening, Style.closing, htripled, hv, hl, noMark, read] using single
      | true =>
        have mark : '\'' ∈ cs := by simpa using ha
        simp [Style.opening, Style.closing, htripled, hv, hl, mark, readText,
          dropLineBreak_append _ nonempty allPlain,
          readVerbatimLines_plain rest plain triple last]

end EvmHarness.Toml
