import EvmHarness.Hex
import EvmHarness.Text.Unprintable
set_option autoImplicit false

/-!
# Quoted text for a reader

A text between two quotation marks on one line, for showing a value to a person: the mark itself,
backslashes and what cannot be printed are escaped, all else stands for itself.
-/

namespace EvmHarness.Text

/-- A character as it stands between two marks. -/
def quoteChar (mark c : Char) : List Char :=
  if c = '\x00' then ['\\', '0']
  else if c = '\t' then ['\\', 't']
  else if c = '\r' then ['\\', 'r']
  else if c = '\n' then ['\\', 'n']
  else if c = mark ∨ c = '\\' then ['\\', c]
  else if isUnprintable c then
    ['\\', 'u', '\x7b'] ++ Hex.digits c.toNat (c.toNat.log2 / 4 + 1) ++ ['\x7d']
  else [c]

/-- Characters between two marks. -/
def quoteWith (mark : Char) (cs : List Char) : String :=
  String.ofList (mark :: cs.flatMap (quoteChar mark) ++ [mark])

/-- A text between double quotation marks. -/
def quote (text : String) : String := quoteWith '"' text.toList

/-- One character between single quotation marks. -/
def quoteOne (c : Char) : String := quoteWith '\x27' [c]

end EvmHarness.Text
