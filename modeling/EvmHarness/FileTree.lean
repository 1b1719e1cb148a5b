import Std.Data.ExtTreeMap
set_option autoImplicit false

/-!
# Trees of text files

Texts kept at paths that lead through directories.  Writing a text makes the directories on its
way; removing a directory removes all that lies in it.  What has been written is what is read
back (`read?_of_write?`), and nothing is left at a place that has been removed
(`contains_remove`).
-/

namespace EvmHarness

/-- The names on the way from the root to a place. -/
abbrev Path : Type := List String

namespace Path

/-- Paths are ordered name by name: trees look them up by comparing. -/
instance transCompare : Std.TransCmp (compare : Path → Path → Ordering) := inferInstance

/-- Only a path itself compares as equal to it. -/
instance lawfulEqCompare : Std.LawfulEqCmp (compare : Path → Path → Ordering) := inferInstance

/-- The directories that lead to a place, the root first. -/
def parents (p : Path) : List Path := (List.range p.length).map p.take

end Path

/-- What lies at a place. -/
inductive Entry where
  | directory
  | file (text : String)
  deriving DecidableEq, Repr, Inhabited

/-- The entries of a tree by their paths. -/
structure FileTree where
  entries : Std.ExtTreeMap Path Entry

namespace FileTree

/-- The tree of the root alone. -/
def empty : FileTree := ⟨(∅ : Std.ExtTreeMap Path Entry).insert [] .directory⟩

instance : Inhabited FileTree := ⟨empty⟩

/-- Whether anything lies at a place. -/
def contains (t : FileTree) (p : Path) : Bool := t.entries.contains p

/-- The text of the file at a place. -/
def read? (t : FileTree) (p : Path) : Option String :=
  match t.entries[p]? with
  | some (.file text) => some text
  | _ => none

/-- Whether a directory lies at a place. -/
def isDirectory (t : FileTree) (p : Path) : Bool := t.entries[p]? = some .directory

/-- Whether a directory can be at a place: it is one already, or nothing is there. -/
def admitsDirectory (t : FileTree) (p : Path) : Bool := (t.read? p).isNone

/-- Writes a file and the directories that lead to it, if no directory lies at the place itself
and no file on the way. -/
def write? (t : FileTree) (p : Path) (text : String) : Option FileTree :=
  if !t.isDirectory p ∧ p.parents.all t.admitsDirectory then
    let entries := p.parents.foldl (fun entries q => entries.insert q .directory) t.entries
    some ⟨entries.insert p (.file text)⟩
  else none

/-- Removes what lies below a place. -/
def clear (t : FileTree) (p : Path) : FileTree :=
  ⟨t.entries.filter fun q _ => q = p || !p.isPrefixOf q⟩

/-- Removes what lies at a place and below it. -/
def remove (t : FileTree) (p : Path) : FileTree :=
  ⟨t.entries.filter fun q _ => !p.isPrefixOf q⟩

theorem read?_of_write? {t t' : FileTree} {p : Path} {text : String}
    (h : t.write? p text = some t') : t'.read? p = some text := by
  unfold write? at h
  split at h
  · obtain rfl := Option.some.inj h
    simp [read?]
  · cases h

theorem contains_remove (t : FileTree) (p : Path) : (t.remove p).contains p = false := by
  rw [← Bool.not_eq_true, contains, Std.ExtTreeMap.contains_iff_mem, remove,
    Std.ExtTreeMap.mem_filter]
  simp

end FileTree

end EvmHarness
