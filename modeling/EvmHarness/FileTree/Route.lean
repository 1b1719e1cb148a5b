import EvmHarness.FileTree
set_option autoImplicit false

/-!
# Routes through a tree of files

A route is a place as it is written, its parts between slashes.  It is followed part by part: a
name leads on, two points lead back up, and a part that is a single point, or nothing at all,
stays where it is.  Each part is taken in a directory, so that a slash after a name asks for a
directory of that name.

What has been written along a route is what is read back along it (`readAt?_of_writeAt`).
-/

namespace EvmHarness

/-- The parts of a place as it is written. -/
structure Route where
  parts : List String
  deriving DecidableEq, Repr, Inhabited

namespace Route

/-- The longest name, in bytes. -/
def nameLimit : Nat := 255

/-- The longest route, in bytes. -/
def sizeLimit : Nat := 4095

/-- The route that a text writes. -/
def ofString (text : String) : Route := ⟨text.splitOn "/"⟩

/-- The text of a route. -/
def toString (r : Route) : String := "/".intercalate r.parts

/-- Whether a route can be followed at all: it is not too long, and none of its characters is
the null character. -/
def isUsable (r : Route) : Bool :=
  r.toString.utf8ByteSize ≤ sizeLimit && !r.toString.toList.contains '\x00'

/-- Whether a part stays where it is. -/
def isIdle (part : String) : Bool := part = "" || part = "."

/-- Whether a part names an entry of the directory it is taken in. -/
def isName (part : String) : Bool := !isIdle part && part ≠ ".."

/-- The place that one part leads to. -/
def turn? (p : Path) (part : String) : Option Path :=
  if isIdle part then some p
  else if part = ".." then some p.dropLast
  else if part.utf8ByteSize ≤ nameLimit then some (p ++ [part])
  else none

/-- The route without its last name or step up, and without what stays in place at its end. -/
def parent (r : Route) : Route :=
  ⟨((r.parts.reverse.dropWhile isIdle).tail.dropWhile isIdle).reverse⟩

/-- The last part that is not empty, after the parts before it. -/
def last? (r : Route) : Option (List String × String) :=
  match r.parts.reverse.dropWhile (· = "") with
  | [] => none
  | last :: before => some (before.reverse, last)

end Route

namespace FileTree

/-- The place that parts lead to from a place, where each of them can be taken. -/
def walk? (t : FileTree) (p : Path) : List String → Option Path
  | [] => some p
  | part :: rest =>
    if t.isDirectory p then
      match Route.turn? p part with
      | some q => t.walk? q rest
      | none => none
    else none

/-- The place that a route leads to from the root. -/
def find? (t : FileTree) (r : Route) : Option Path :=
  if r.isUsable then t.walk? [] r.parts else none

/-- Walks on from a directory and makes one wherever there is nothing.  The directories made stay
also where the walk comes to nothing. -/
def makeWay (t : FileTree) (p : Path) : List String → FileTree × Option Path
  | [] => (t, some p)
  | part :: rest =>
    match Route.turn? p part with
    | none => (t, none)
    | some q =>
      match t.entries[q]? with
      | some .directory => t.makeWay q rest
      | some (.file _) => (t, none)
      | none => makeWay ⟨t.entries.insert q .directory⟩ q rest

/-- Makes the directories that a route leads through before its end. -/
def makeParents (t : FileTree) (r : Route) : FileTree :=
  if r.parent.isUsable then (t.makeWay [] r.parent.parts).1 else t

/-- The text of the file that a route leads to. -/
def readAt? (t : FileTree) (r : Route) : Option String := (t.find? r).bind t.read?

/-- Writes a file where a route leads to, after making the directories on the way, and tells
whether there is one now.  The directories stay also where the file cannot be written. -/
def writeAt (t : FileTree) (r : Route) (text : String) : FileTree × Bool :=
  let t := t.makeParents r
  match t.find? r with
  | some p =>
    if t.isDirectory p then (t, false) else (⟨t.entries.insert p (.file text)⟩, true)
  | none => (t, false)

/-- Removes what a route leads to, and tells whether nothing is there now.  A directory loses its
entries first.  Then its route has to lead to it still: if it went through one of those entries,
the directory stays, and the route leads nowhere; if it ends in points instead of a name, the
directory stays as well. -/
def removeAt (t : FileTree) (r : Route) : FileTree × Bool :=
  match t.find? r with
  | none => (t, true)
  | some p =>
    if t.isDirectory p then
      let t := t.clear p
      match r.last? with
      | none => (t, false)
      | some (before, last) =>
        if ((t.walk? [] before).filter t.isDirectory).isNone then (t, true)
        else if Route.isName last then (t.remove p, true)
        else (t, false)
    else (t.remove p, true)

theorem walk?_insert_file {t : FileTree} {p q place : Path} {parts : List String} (text : String)
    (hq : t.isDirectory q = false) (h : t.walk? p parts = some place) :
    walk? ⟨t.entries.insert q (.file text)⟩ p parts = some place := by
  induction parts generalizing p with
  | nil => exact h
  | cons part rest ih =>
    by_cases hp : t.isDirectory p
    · have hne : ¬ q = p := fun hpq => by simp [← hpq, hq] at hp
      have hp' : isDirectory ⟨t.entries.insert q (.file text)⟩ p := by
        simpa [isDirectory, Std.ExtTreeMap.getElem?_insert, hne] using hp
      rw [walk?, if_pos hp] at h
      rw [walk?, if_pos hp']
      cases hturn : Route.turn? p part with
      | none => simp [hturn] at h
      | some next => exact ih (by simpa [hturn] using h)
    · simp [walk?, hp] at h

theorem readAt?_of_writeAt {t t' : FileTree} {r : Route} {text : String}
    (h : t.writeAt r text = (t', true)) : t'.readAt? r = some text := by
  simp only [writeAt] at h
  split at h
  · rename_i p hp
    split at h
    · cases h
    · rename_i hd
      obtain ⟨rfl, -⟩ := Prod.mk.inj h
      unfold find? at hp
      split at hp
      · rename_i hr
        have hwalk := walk?_insert_file text (Bool.not_eq_true _ ▸ hd) hp
        simp [readAt?, find?, hr, hwalk, read?]
      · cases hp
  · cases h

end FileTree

end EvmHarness
