import EvmHarness.Word
import EvmHarness.Fault
set_option autoImplicit false

/-!
# The stack

At most 1024 words, the top one first.  Only pushing looks at the bound; every other operation
asks that the words it names are there.
-/

namespace EvmHarness

/-- A stack of words, the top one first. -/
structure Stack where
  words : List Word
  deriving DecidableEq, Repr, Inhabited

namespace Stack

/-- The most words that a stack holds. -/
def limit : Nat := 1024

/-- The stack without words. -/
def empty : Stack := ⟨[]⟩

/-- The number of words. -/
def size (s : Stack) : Nat := s.words.length

/-- Whether there are no words. -/
def isEmpty (s : Stack) : Bool := s.words.isEmpty

/-- The stack with a word on top, unless it is full. -/
def push (s : Stack) (w : Word) : Except Fault Stack :=
  if s.size < limit then .ok ⟨w :: s.words⟩ else .error .stackLimitExceeded

/-- The top word, and the stack below it. -/
def pop (s : Stack) : Except Fault (Word × Stack) :=
  match s.words with
  | [] => .error .stackUnderrun
  | w :: rest => .ok (w, ⟨rest⟩)

/-- The upper `n` words, top first, and the stack below them. -/
def popMany (s : Stack) (n : Nat) : Except Fault (List Word × Stack) :=
  if n ≤ s.size then .ok (s.words.take n, ⟨s.words.drop n⟩) else .error .stackUnderrun

/-- The word `i` places below the top. -/
def peek (s : Stack) (i : Nat) : Except Fault Word :=
  match s.words[i]? with
  | none => .error .stackUnderrun
  | some w => .ok w

/-- Exchanges the top word and the one `n` places below it. -/
def swap (s : Stack) (n : Nat) : Except Fault Stack :=
  match s.words[0]?, s.words[n]? with
  | some top, some other => .ok ⟨(s.words.set n top).set 0 other⟩
  | _, _ => .error .stackUnderrun

/-- Pushes a copy of the `n`-th word, the top being the first. -/
def dup (s : Stack) (n : Nat) : Except Fault Stack :=
  match n with
  | 0 => .error .stackUnderrun
  | i + 1 =>
    match s.peek i with
    | .ok w => s.push w
    | .error fault => .error fault

/-- The words in brackets, top first, each with as few digits as it needs. -/
def display (s : Stack) : String :=
  "[" ++ ", ".intercalate (s.words.map fun w => Hex.markedShort w.toNat) ++ "]"

theorem push_of_lt {s : Stack} (h : s.size < limit) (w : Word) :
    s.push w = .ok ⟨w :: s.words⟩ := if_pos h

theorem size_of_push {s t : Stack} {w : Word} (h : s.push w = .ok t) :
    s.size < limit ∧ t.size = s.size + 1 := by
  unfold push at h
  split at h
  · rename_i room
    obtain rfl := Except.ok.inj h
    exact ⟨room, rfl⟩
  · exact absurd h nofun

theorem size_of_dup {s t : Stack} {n : Nat} (h : s.dup n = .ok t) :
    s.size < limit ∧ t.size = s.size + 1 := by
  unfold dup at h
  cases n with
  | zero => exact absurd h nofun
  | succ i =>
      dsimp only at h
      cases hw : s.peek i with
      | ok w =>
          rw [hw] at h
          exact size_of_push h
      | error fault =>
          rw [hw] at h
          exact absurd h nofun

theorem size_of_swap {s t : Stack} {n : Nat} (h : s.swap n = .ok t) : t.size = s.size := by
  unfold swap at h
  split at h
  · obtain rfl := Except.ok.inj h
    simp [size]
  · exact absurd h nofun

theorem pop_cons (w : Word) (rest : List Word) : pop ⟨w :: rest⟩ = .ok (w, ⟨rest⟩) := rfl

theorem popMany_of_le {s : Stack} {n : Nat} (h : n ≤ s.size) :
    s.popMany n = .ok (s.words.take n, ⟨s.words.drop n⟩) := if_pos h

end Stack

end EvmHarness
