import EvmHarness.Toml.Number
import EvmHarness.Toml.Text
set_option autoImplicit false

/-!
# Documents line by line

Every line of a document is blank, names a table, or gives a key a value; a comment may end it.
A value goes on to a further line only inside a text.  Reading a line takes at least one
character (`readStatement_length`), so that the lines come to an end.
-/

namespace EvmHarness.Toml

/-! ## Writing -/

/-- A value as it stands in a document. -/
def Value.write : Value → List Char
  | .text content => writeText content
  | .integer n => (toString n).toList
  | .boolean b => (if b then "true" else "false").toList
  | .decimal written => written.toList

/-- A table without a name, one line a key. -/
def Table.write (t : Table) : String :=
  String.ofList (t.flatMap fun (key, value) =>
    key.toList ++ [' ', '=', ' '] ++ value.write ++ ['\n'])

/-! ## Reading -/

/-- Whether a character may stand between the parts of a line. -/
def isSpace (c : Char) : Bool := c == ' ' || c == '\t'

/-- Whether a character can be part of a key. -/
def isKeyChar (c : Char) : Bool := c.isAlphanum || c == '_' || c == '-'

/-- Whether a character can be part of a value that is no text. -/
def isWordChar (c : Char) : Bool := isKeyChar c || c == '+' || c == '.'

/-- The characters after a comment, if there is one. -/
def dropComment : List Char → List Char
  | '#' :: rest => rest.dropWhile isPlain
  | cs => cs

/-- Reads the end of a line, or of the text, with a comment before it. -/
def readLineEnd (cs : List Char) : Option (List Char) :=
  match dropComment (cs.dropWhile isSpace) with
  | [] => some []
  | '\n' :: rest => some rest
  | '\r' :: '\n' :: rest => some rest
  | _ => none

/-- Reads a key, and what comes after it. -/
def readKey (cs : List Char) : Option (String × List Char) :=
  match cs.takeWhile isKeyChar with
  | [] => none
  | key => some (String.ofList key, cs.dropWhile isKeyChar)

/-- The value that a word is. -/
def Value.ofWord? (word : List Char) : Option Value :=
  if word = "true".toList then some (.boolean true)
  else if word = "false".toList then some (.boolean false)
  else match integer? word with
    | some n => some (.integer n)
    | none => if isDecimal word then some (.decimal (String.ofList word)) else none

/-- Reads a value, and what comes after it. -/
def readValue (cs : List Char) : Option (Value × List Char) :=
  match readText cs with
  | some (content, rest) => some (.text (String.ofList content), rest)
  | none => (Value.ofWord? (cs.takeWhile isWordChar)).map (·, cs.dropWhile isWordChar)

/-- Reads the rest of a line that names a table, and what comes after it. -/
def readHeader (cs : List Char) : Option (Statement × List Char) :=
  match readKey (cs.dropWhile isSpace) with
  | some (name, rest) =>
    match rest.dropWhile isSpace with
    | ']' :: rest => (readLineEnd rest).map (.header name, ·)
    | _ => none
  | none => none

/-- Reads the rest of a line that gives a key a value, and what comes after it. -/
def readEntry (key : String) (cs : List Char) : Option (Statement × List Char) :=
  match cs.dropWhile isSpace with
  | '=' :: rest =>
    match readValue (rest.dropWhile isSpace) with
    | some (value, rest) => (readLineEnd rest).map (.entry key value, ·)
    | none => none
  | _ => none

/-- Reads a line, and what comes after it. -/
def readStatement (cs : List Char) : Option (Statement × List Char) :=
  match cs.dropWhile isSpace with
  | '[' :: rest => readHeader rest
  | start =>
    match readKey start with
    | some (key, rest) => readEntry key rest
    | none => (readLineEnd start).map (.blank, ·)

/-! ## What reading leaves -/

theorem length_dropWhile_le {α : Type} (p : α → Bool) (xs : List α) :
    (xs.dropWhile p).length ≤ xs.length :=
  (List.dropWhile_suffix p).length_le

theorem readQuoted_length {cs content rest : List Char}
    (h : readQuoted cs = some (content, rest)) : rest.length ≤ cs.length := by
  fun_induction readQuoted cs generalizing content rest <;>
    grind [before, Option.map_eq_some_iff]

theorem readVerbatim_length {cs content rest : List Char}
    (h : readVerbatim cs = some (content, rest)) : rest.length ≤ cs.length := by
  fun_induction readVerbatim cs generalizing content rest <;>
    grind [before, Option.map_eq_some_iff]

theorem readQuotedLines_length {cs content rest : List Char}
    (h : readQuotedLines cs = some (content, rest)) : rest.length ≤ cs.length := by
  fun_induction readQuotedLines cs generalizing content rest <;>
    grind [before, Option.map_eq_some_iff]

theorem readVerbatimLines_length {cs content rest : List Char}
    (h : readVerbatimLines cs = some (content, rest)) : rest.length ≤ cs.length := by
  fun_induction readVerbatimLines cs generalizing content rest <;>
    grind [before, Option.map_eq_some_iff]

theorem length_dropLineBreak_le (cs : List Char) : (dropLineBreak cs).length ≤ cs.length := by
  fun_cases dropLineBreak cs <;> grind

theorem readText_length {cs content rest : List Char}
    (h : readText cs = some (content, rest)) : rest.length ≤ cs.length := by
  unfold readText at h
  split at h <;>
    grind [→ readQuotedLines_length, → readVerbatimLines_length, → readQuoted_length,
      → readVerbatim_length, length_dropLineBreak_le]

theorem readKey_length {cs rest : List Char} {key : String}
    (h : readKey cs = some (key, rest)) : rest.length ≤ cs.length := by
  unfold readKey at h
  split at h
  · cases h
  · obtain ⟨rfl, rfl⟩ := Prod.mk.inj (Option.some.inj h)
    exact length_dropWhile_le _ _

theorem readValue_length {cs rest : List Char} {value : Value}
    (h : readValue cs = some (value, rest)) : rest.length ≤ cs.length := by
  unfold readValue at h
  split at h
  · obtain ⟨rfl, rfl⟩ := Prod.mk.inj (Option.some.inj h)
    exact readText_length ‹_›
  · obtain ⟨_, _, hr⟩ := Option.map_eq_some_iff.1 h
    obtain ⟨rfl, rfl⟩ := Prod.mk.inj hr
    exact length_dropWhile_le _ _

theorem length_dropComment_le (cs : List Char) : (dropComment cs).length ≤ cs.length := by
  fun_cases dropComment cs <;> grind [length_dropWhile_le]

/-- The end of a line takes a character, unless it is the end of the text. -/
theorem readLineEnd_length {cs rest : List Char} (h : readLineEnd cs = some rest) :
    rest = [] ∨ rest.length < cs.length := by
  have hle := Nat.le_trans (length_dropComment_le _) (length_dropWhile_le isSpace cs)
  unfold readLineEnd at h
  split at h <;> grind

theorem readHeader_length {cs rest : List Char} {s : Statement}
    (h : readHeader cs = some (s, rest)) : rest = [] ∨ rest.length < cs.length := by
  unfold readHeader at h
  grind [Option.map_eq_some_iff, → readKey_length, → readLineEnd_length, length_dropWhile_le]

theorem readEntry_length {cs rest : List Char} {key : String} {s : Statement}
    (h : readEntry key cs = some (s, rest)) : rest = [] ∨ rest.length < cs.length := by
  unfold readEntry at h
  grind [Option.map_eq_some_iff, → readValue_length, → readLineEnd_length, length_dropWhile_le]

/-- A line takes a character of a text that is not at its end. -/
theorem readStatement_length {cs rest : List Char} {s : Statement}
    (h : readStatement cs = some (s, rest)) (hcs : cs ≠ []) : rest.length < cs.length := by
  have hpos := List.length_pos_iff.2 hcs
  unfold readStatement at h
  grind [Option.map_eq_some_iff, → readKey_length, → readHeader_length, → readEntry_length,
    → readLineEnd_length, length_dropWhile_le]

/-! ## Whole documents -/

/-- Reads all lines. -/
def readStatements (cs : List Char) : Option (List Statement) :=
  if hcs : cs = [] then some []
  else match h : readStatement cs with
    | some (s, rest) =>
      have := readStatement_length h hcs
      (readStatements rest).map (s :: ·)
    | none => none
termination_by cs.length

/-- The characters after a mark of the byte order, if there is one. -/
def dropOrderMark : List Char → List Char
  | '\ufeff' :: rest => rest
  | cs => cs

/-- Reads a document. -/
def Document.read? (text : String) : Option Document :=
  (readStatements (dropOrderMark text.toList)).bind ofStatements?

end EvmHarness.Toml
