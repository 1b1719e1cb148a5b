import EvmHarness.Hex
import EvmHarness.Toml
set_option autoImplicit false

/-!
# Texts in documents

A text stands between quotes, where a backslash begins an escape, or between apostrophes, where
every character is itself.  Three marks on each side let the text run over several lines; a line
break right after the opening marks does not count.

Writing prefers apostrophes where they save escapes (`Style.of`), and reading takes back what has
been written in any of the styles.
-/

namespace EvmHarness.Toml

/-- Whether a character may stand in a text or a comment as it is: no control but the tab. -/
def isPlain (c : Char) : Bool := c = '\t' || (' ' ≤ c && c ≠ '\x7f')

/-! ## Writing -/

/-- How a text is marked off. -/
structure Style where
  /-- every character is itself -/
  verbatim : Bool
  /-- three marks on each side -/
  tripled : Bool
  /-- the text begins on a line of its own -/
  ownLine : Bool
  deriving DecidableEq, Repr, Inhabited

namespace Style

/-- Whether the characters have three apostrophes in a row. -/
def hasTripleApostrophe : List Char → Bool
  | '\'' :: '\'' :: '\'' :: _ => true
  | _ :: rest => hasTripleApostrophe rest
  | [] => false

/-- The style of a text.  A line break asks for several lines.  Apostrophes are chosen for a text
with a backslash, unless it has a control character or apostrophes that would end it. -/
def of (cs : List Char) : Style :=
  let verbatim := cs.contains '\\' && cs.all (fun c => isPlain c || c == '\n') &&
    !hasTripleApostrophe cs && cs.getLast? != some '\''
  let ownLine := cs.contains '\n'
  { verbatim, ownLine, tripled := ownLine || (verbatim && cs.contains '\'') }

/-- The marks before a text. -/
def opening (s : Style) : List Char :=
  List.replicate (if s.tripled then 3 else 1) (if s.verbatim then '\'' else '"') ++
    if s.ownLine then ['\n'] else []

/-- The marks after a text. -/
def closing (s : Style) : List Char :=
  List.replicate (if s.tripled then 3 else 1) (if s.verbatim then '\'' else '"')

end Style

/-- A character between quotes; a line break stands for itself where the text has several
lines. -/
def escape (ownLine : Bool) (c : Char) : List Char :=
  if c = '\x08' then ['\\', 'b']
  else if c = '\t' then ['\\', 't']
  else if c = '\n' then if ownLine then ['\n'] else ['\\', 'n']
  else if c = '\x0c' then ['\\', 'f']
  else if c = '\r' then ['\\', 'r']
  else if c = '"' ∨ c = '\\' then ['\\', c]
  else if isPlain c then [c]
  else '\\' :: 'u' :: (Hex.digits c.toNat 4).map Char.toUpper

/-- A text with its marks. -/
def writeText (text : String) : List Char :=
  let cs := text.toList
  let style := Style.of cs
  let body := if style.verbatim then cs else cs.flatMap (escape style.ownLine)
  style.opening ++ body ++ style.closing

/-! ## Reading -/

/-- The character that a single letter after a backslash stands for. -/
def escaped? : Char → Option Char
  | 'b' => some '\x08'
  | 't' => some '\t'
  | 'n' => some '\n'
  | 'f' => some '\x0c'
  | 'r' => some '\r'
  | '"' => some '"'
  | '\\' => some '\\'
  | _ => none

/-- The character of a number in hexadecimal digits. -/
def ofHexDigits? (cs : List Char) : Option Char := do
  let n ← cs.foldlM (fun n c => (Hex.digitValue? c).map (n * 16 + ·)) 0
  if n.isValidChar then some (Char.ofNat n) else none

/-- The text with a character before it. -/
def before (c : Char) (read : List Char × List Char) : List Char × List Char :=
  (c :: read.1, read.2)

/-- Reads the rest of a text between quotes, and what comes after it. -/
def readQuoted : List Char → Option (List Char × List Char)
  | [] => none
  | '"' :: rest => some ([], rest)
  | '\\' :: 'u' :: a :: b :: c :: d :: rest =>
    match ofHexDigits? [a, b, c, d] with
    | some e => (readQuoted rest).map (before e)
    | none => none
  | '\\' :: c :: rest =>
    match escaped? c with
    | some e => (readQuoted rest).map (before e)
    | none => none
  | c :: rest => if isPlain c then (readQuoted rest).map (before c) else none

/-- Reads the rest of a text between apostrophes, and what comes after it. -/
def readVerbatim : List Char → Option (List Char × List Char)
  | [] => none
  | '\'' :: rest => some ([], rest)
  | c :: rest => if isPlain c then (readVerbatim rest).map (before c) else none

/-- Reads the rest of a text between three quotes, and what comes after it.  Up to two quotes
before the closing ones belong to the text. -/
def readQuotedLines : List Char → Option (List Char × List Char)
  | [] => none
  | '"' :: '"' :: '"' :: '"' :: '"' :: rest => some (['"', '"'], rest)
  | '"' :: '"' :: '"' :: '"' :: rest => some (['"'], rest)
  | '"' :: '"' :: '"' :: rest => some ([], rest)
  | '\r' :: '\n' :: rest => (readQuotedLines rest).map (before '\n')
  | '\\' :: 'u' :: a :: b :: c :: d :: rest =>
    match ofHexDigits? [a, b, c, d] with
    | some e => (readQuotedLines rest).map (before e)
    | none => none
  | '\\' :: c :: rest =>
    match escaped? c with
    | some e => (readQuotedLines rest).map (before e)
    | none => none
  | c :: rest =>
    if isPlain c ∨ c = '\n' then (readQuotedLines rest).map (before c) else none

/-- Reads the rest of a text between three apostrophes, and what comes after it.  Up to two
apostrophes before the closing ones belong to the text. -/
def readVerbatimLines : List Char → Option (List Char × List Char)
  | [] => none
  | '\'' :: '\'' :: '\'' :: '\'' :: '\'' :: rest => some (['\'', '\''], rest)
  | '\'' :: '\'' :: '\'' :: '\'' :: rest => some (['\''], rest)
  | '\'' :: '\'' :: '\'' :: rest => some ([], rest)
  | '\r' :: '\n' :: rest => (readVerbatimLines rest).map (before '\n')
  | c :: rest =>
    if isPlain c ∨ c = '\n' then (readVerbatimLines rest).map (before c) else none

/-- The characters after a line break, if there is one. -/
def dropLineBreak : List Char → List Char
  | '\n' :: rest => rest
  | '\r' :: '\n' :: rest => rest
  | cs => cs

/-- Reads a text with its marks, and what comes after it. -/
def readText : List Char → Option (List Char × List Char)
  | '"' :: '"' :: '"' :: rest => readQuotedLines (dropLineBreak rest)
  | '\'' :: '\'' :: '\'' :: rest => readVerbatimLines (dropLineBreak rest)
  | '"' :: rest => readQuoted rest
  | '\'' :: rest => readVerbatim rest
  | _ => none

end EvmHarness.Toml
