import EvmHarness.Coverage
import Mathlib.Data.List.Dedup
set_option autoImplicit false

/-!
# Coverage maps as sets of points

What a coverage map holds is a set of points, each a place in a code, beside the digests under
which it keeps them.  Adding points joins a list to the set: their order does not matter, nor how
often each comes, and the map counts every point once.  Recording a state adds one point, which the
account records and the frame say: the digest found where the running code came from, with the
program counter.
-/

namespace EvmHarness

namespace Coverage

variable {c covered : Coverage} {h : Hash} {pc : Nat}

/-- The point of a state: the digest in the record at the address that the running code came from,
or the one for code without a record, and the program counter. -/
def pointOf (m : Machine) : Hash × Nat :=
  ((m.accounts[m.frame.codeAccount]?.map Account.codeHash).getD unknownCode, m.frame.pc)

/-- Adds a list of points. -/
def addAll (c : Coverage) (points : List (Hash × Nat)) : Coverage :=
  points.foldl (fun c p => (c.insert p.1 p.2).2) c

/-- The second map is the first one joined with the points. -/
structure Joins (c : Coverage) (points : List (Hash × Nat)) (covered : Coverage) : Prop where
  contains : ∀ h pc, covered.contains h pc = true ↔ c.contains h pc = true ∨ (h, pc) ∈ points
  codes : ∀ h, h ∈ covered.codes ↔ h ∈ c.codes ∨ ∃ pc, (h, pc) ∈ points

/-- The points of the map, one by one. -/
def pointList (c : Coverage) : List (Hash × Nat) :=
  c.codes.toList.flatMap fun code => code.2.toList.map fun pc => (code.1, pc)

/-! ## What a map holds -/

theorem contains_of_getElem? {pcs : Std.ExtTreeSet Nat} (found : c.codes[h]? = some pcs) :
    c.contains h pc = pcs.contains pc := by
  rw [contains, reached, Std.ExtTreeMap.getD_eq_getD_getElem?, found, Option.getD_some]

theorem not_contains_of_getElem? (missing : c.codes[h]? = none) : c.contains h pc = false := by
  rw [contains, reached, Std.ExtTreeMap.getD_eq_getD_getElem?, missing, Option.getD_none]
  rfl

/-- A map is its digests with the points under them. -/
theorem ext_contains (codes : ∀ h, h ∈ c.codes ↔ h ∈ covered.codes)
    (points : ∀ h pc, c.contains h pc = covered.contains h pc) : c = covered := by
  rcases c with ⟨xs⟩
  rcases covered with ⟨ys⟩
  congr
  apply Std.ExtTreeMap.ext_getElem?
  intro h
  have there : xs[h]?.isSome = ys[h]?.isSome := by
    rw [Bool.eq_iff_iff, Std.ExtTreeMap.isSome_getElem?_iff_mem,
      Std.ExtTreeMap.isSome_getElem?_iff_mem]
    exact codes h
  cases hx : xs[h]? with
  | none =>
      rw [hx] at there
      exact (Option.not_isSome_iff_eq_none.1 (Bool.eq_false_iff.1 there.symm)).symm
  | some pcs =>
      rw [hx] at there
      obtain ⟨pcs', hy⟩ := Option.isSome_iff_exists.1 there.symm
      rw [hy]
      congr
      apply Std.ExtTreeSet.ext_contains
      intro pc
      rw [← contains_of_getElem? (c := ⟨xs⟩) hx, ← contains_of_getElem? (c := ⟨ys⟩) hy]
      exact points h pc

/-! ## Adding points -/

theorem contains_insert (h h' : Hash) (pc pc' : Nat) :
    (c.insert h pc).2.contains h' pc' = true ↔ c.contains h' pc' = true ∨ (h', pc') = (h, pc) := by
  by_cases same : h = h'
  · subst same
    simp only [contains, reached, insert, Std.ExtTreeMap.getD_insert_self,
      Std.ExtTreeSet.contains_insert, Bool.or_eq_true, beq_iff_eq, Std.compare_eq_iff_eq,
      Prod.mk.injEq, true_and]
    rw [or_comm, eq_comm (a := pc)]
  · have other : h' ≠ h := fun heq => same heq.symm
    simp [contains, reached, insert, Std.ExtTreeMap.getD_insert, same, other]

theorem mem_codes_insert (h h' : Hash) (pc : Nat) :
    h' ∈ (c.insert h pc).2.codes ↔ h' ∈ c.codes ∨ h' = h := by
  rw [insert, Std.ExtTreeMap.mem_insert, Std.compare_eq_iff_eq, or_comm, eq_comm]

/-- Adding points joins the map with them. -/
theorem joins_addAll (c : Coverage) (points : List (Hash × Nat)) :
    c.Joins points (c.addAll points) := by
  induction points generalizing c with
  | nil => exact ⟨by simp [addAll], by simp [addAll]⟩
  | cons p points ih =>
      have rest := ih (c.insert p.1 p.2).2
      refine ⟨?_, ?_⟩
      · intro h pc
        show ((c.insert p.1 p.2).2.addAll points).contains h pc = true ↔ _
        rw [rest.contains, contains_insert, List.mem_cons, or_assoc]
      · intro h
        show h ∈ ((c.insert p.1 p.2).2.addAll points).codes ↔ _
        rw [rest.codes, mem_codes_insert, or_assoc]
        simp only [List.mem_cons, exists_or, Prod.ext_iff]
        simp

/-- Recording a state adds its point. -/
theorem record_eq_addAll (m : Machine) (c : Coverage) : record m c = c.addAll [pointOf m] := by
  have digest : codeHashOf m = (pointOf m).1 := by
    unfold codeHashOf pointOf
    cases m.accounts[m.frame.codeAccount]? with
    | some record => rfl
    | none => rfl
  rw [record, digest]
  rfl

/-- Recording states one after another adds their points. -/
theorem foldl_record (states : List Machine) (c : Coverage) :
    states.foldl (fun c m => record m c) c = c.addAll (states.map pointOf) := by
  induction states generalizing c with
  | nil => rfl
  | cons m states ih =>
      rw [List.foldl_cons, ih, record_eq_addAll]
      rfl

/-- Adding the same points again changes nothing. -/
theorem addAll_addAll (c : Coverage) (points : List (Hash × Nat)) :
    (c.addAll points).addAll points = c.addAll points := by
  have once := c.joins_addAll points
  have twice := (c.addAll points).joins_addAll points
  apply ext_contains
  · intro h
    rw [twice.codes, once.codes]
    tauto
  · intro h pc
    rw [Bool.eq_iff_iff, twice.contains, once.contains]
    tauto

/-! ## Counting points -/

theorem mem_pointList : (h, pc) ∈ c.pointList ↔ c.contains h pc = true := by
  simp only [pointList, List.mem_flatMap, List.mem_map, Prod.mk.injEq, Prod.exists,
    Std.ExtTreeMap.mem_toList_iff_getElem?_eq_some, Std.ExtTreeSet.mem_toList]
  constructor
  · rintro ⟨_, pcs, found, _, reached, rfl, rfl⟩
    rw [contains_of_getElem? found]
    exact Std.ExtTreeSet.contains_iff_mem.2 reached
  · intro reached
    cases found : c.codes[h]? with
    | none =>
        rw [not_contains_of_getElem? found] at reached
        exact absurd reached Bool.false_ne_true
    | some pcs =>
        rw [contains_of_getElem? found] at reached
        exact ⟨h, pcs, found, pc, Std.ExtTreeSet.contains_iff_mem.1 reached, rfl, rfl⟩

theorem nodup_pointList (c : Coverage) : c.pointList.Nodup := by
  refine List.nodup_flatMap.2 ⟨?_, ?_⟩
  · intro code _
    have distinct : code.2.toList.Nodup :=
      Std.ExtTreeSet.distinct_toList.imp fun h heq => h (Std.compare_eq_iff_eq.2 heq)
    exact distinct.map fun pc pc' heq => (Prod.mk.inj heq).2
  · refine Std.ExtTreeMap.distinct_keys_toList.imp ?_
    rintro code code' other ⟨h, pc⟩ here there
    simp only [List.mem_map, Prod.mk.injEq] at here there
    obtain ⟨_, _, rfl, _⟩ := here
    obtain ⟨_, _, same, _⟩ := there
    exact other (Std.compare_eq_iff_eq.2 same.symm)

theorem length_pointList (c : Coverage) : c.pointList.length = c.points := by
  have count : ∀ (codes : List (Hash × Std.ExtTreeSet Nat)) (n : Nat),
      codes.foldl (fun n code => n + code.2.size) n =
        n + (codes.map fun code => code.2.size).sum := by
    intro codes
    induction codes with
    | nil => simp
    | cons code codes ih => simp [ih, Nat.add_assoc]
  rw [points, Std.ExtTreeMap.foldl_eq_foldl_toList, count, pointList, List.length_flatMap]
  simp

/-- A map grows by the number of different points that are new to it. -/
theorem Joins.points {points : List (Hash × Nat)} (joins : c.Joins points covered) :
    covered.points = c.points + (points.filter fun p => !c.contains p.1 p.2).dedup.length := by
  rw [← length_pointList, ← length_pointList, ← List.length_append]
  apply List.Perm.length_eq
  refine (List.perm_ext_iff_of_nodup covered.nodup_pointList ?_).2 ?_
  · refine List.Nodup.append c.nodup_pointList (List.nodup_dedup _) ?_
    rintro ⟨h, pc⟩ old new
    simp [mem_pointList.1 old] at new
  · rintro ⟨h, pc⟩
    rw [List.mem_append, mem_pointList, mem_pointList, joins.contains]
    by_cases old : c.contains h pc = true <;> simp [old]

end Coverage

end EvmHarness
