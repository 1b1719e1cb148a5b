set_option autoImplicit false

/-!
# Documents of keys and values

The part of TOML that settings are kept in: a document is a table of its own followed by named
tables, and a table gives each of its keys one value.  A key or a name that comes twice makes a
text no document.
-/

namespace EvmHarness.Toml

/-- What a key can stand for. -/
inductive Value where
  | text (content : String)
  | integer (n : Int)
  | boolean (b : Bool)
  /-- a number with a fraction or an exponent, kept as it is written -/
  | decimal (written : String)
  deriving DecidableEq, Repr, Inhabited

namespace Value

/-- The least and the greatest integer that a document can hold are those of 64 bits with a
sign. -/
def holdsInteger (n : Int) : Bool := -0x8000000000000000 ≤ n && n ≤ 0x7fffffffffffffff

end Value

/-- The keys of a table with their values, in the order of the text. -/
abbrev Table : Type := List (String × Value)

namespace Table

/-- Whether a table has a key. -/
def hasKey (t : Table) (key : String) : Bool := t.any (·.1 == key)

end Table

/-- A document. -/
structure Document where
  /-- the keys before the first named table -/
  root : Table
  /-- the named tables, the last one first -/
  named : List (String × Table)
  deriving DecidableEq, Repr, Inhabited

/-- What one line of a document says. -/
inductive Statement where
  | blank
  /-- the keys that follow belong to the table of this name -/
  | header (name : String)
  | entry (key : String) (value : Value)
  deriving DecidableEq, Repr, Inhabited

namespace Document

/-- The document of no lines. -/
def empty : Document := ⟨[], []⟩

/-- The document with one more line, if the line repeats no key and no name. -/
def add? (d : Document) : Statement → Option Document
  | .blank => some d
  | .header name =>
    if d.root.hasKey name || d.named.any (·.1 == name) then none
    else some { d with named := (name, []) :: d.named }
  | .entry key value =>
    match d.named with
    | [] => if d.root.hasKey key then none else some { d with root := d.root ++ [(key, value)] }
    | (name, t) :: rest =>
      if t.hasKey key then none else some { d with named := (name, t ++ [(key, value)]) :: rest }

/-- The document that lines make up. -/
def ofStatements? (lines : List Statement) : Option Document := lines.foldlM add? empty

/-- The value of a key outside the named tables. -/
def find? (d : Document) (key : String) : Option Value := d.root.lookup key

end Document

end EvmHarness.Toml
