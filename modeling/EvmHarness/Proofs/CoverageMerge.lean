import EvmHarness.Proofs.CoverageMap
import Mathlib.Logic.Function.Basic
set_option autoImplicit false

/-!
# Coverage maps that are merged

Several executions may each record into a map of their own, and the maps are merged in the end.  A
map without an empty digest is the set of its points, and a merge joins two such sets.  So what a
map holds after some merges hangs on which maps have come into it, and not on the order in which
they came, on their nesting or on how often each came.
-/

namespace EvmHarness

namespace Coverage

variable {c d : Coverage} {h : Hash} {pc : Nat}

/-- Under every digest that the map keeps there is a point. -/
def Tight (c : Coverage) : Prop :=
  ∀ (h : Hash) (pcs : Std.ExtTreeSet Nat), c.codes[h]? = some pcs → pcs ≠ ∅

/-! ## A tight map is the set of its points -/

theorem tight_iff : c.Tight ↔ ∀ h, h ∈ c.codes → ∃ pc, c.contains h pc = true := by
  constructor
  · intro tight h kept
    have found := Std.ExtTreeMap.getElem?_eq_some_getElem kept
    have some_point : ¬∀ pc, c.codes[h].contains pc = false := fun none =>
      tight h _ found (Std.ExtTreeSet.eq_empty_iff_forall_contains.2 none)
    simp only [not_forall, Bool.not_eq_false] at some_point
    obtain ⟨pc, reached⟩ := some_point
    exact ⟨pc, (contains_of_getElem? found).trans reached⟩
  · intro points h pcs found
    have kept : h ∈ c.codes :=
      Std.ExtTreeMap.mem_iff_isSome_getElem?.2 (Option.isSome_of_eq_some found)
    obtain ⟨pc, reached⟩ := points h kept
    rw [contains_of_getElem? found] at reached
    exact Std.ExtTreeSet.ne_empty_of_mem (Std.ExtTreeSet.contains_iff_mem.1 reached)

/-- A map that holds a point keeps its digest. -/
theorem mem_codes_of_contains (reached : c.contains h pc = true) : h ∈ c.codes := by
  by_contra missing
  rw [not_contains_of_getElem? (Std.ExtTreeMap.getElem?_eq_none missing)] at reached
  exact absurd reached Bool.false_ne_true

/-- Tight maps with the same points are the same. -/
theorem Tight.ext (hc : c.Tight) (hd : d.Tight)
    (points : ∀ h pc, c.contains h pc = true ↔ d.contains h pc = true) : c = d := by
  have kept : ∀ {x y : Coverage}, x.Tight →
      (∀ h pc, x.contains h pc = true → y.contains h pc = true) →
      ∀ h, h ∈ x.codes → h ∈ y.codes := by
    intro x y tight le h hx
    obtain ⟨pc, reached⟩ := tight_iff.1 tight h hx
    exact mem_codes_of_contains (le h pc reached)
  apply ext_contains
  · intro h
    exact ⟨kept hc (fun h pc => (points h pc).1) h, kept hd (fun h pc => (points h pc).2) h⟩
  · intro h pc
    exact Bool.eq_iff_iff.2 (points h pc)

theorem tight_empty : empty.Tight := fun h pcs found => absurd found (by simp [empty])

theorem not_contains_empty (h : Hash) (pc : Nat) : empty.contains h pc = false :=
  not_contains_of_getElem? (by simp [empty])

/-- Adding points makes no empty digest. -/
theorem Tight.addAll (tight : c.Tight) (points : List (Hash × Nat)) : (c.addAll points).Tight := by
  have joins := c.joins_addAll points
  rw [tight_iff] at tight ⊢
  intro h kept
  rcases (joins.codes h).1 kept with old | ⟨pc, new⟩
  · obtain ⟨pc, reached⟩ := tight h old
    exact ⟨pc, (joins.contains h pc).2 (.inl reached)⟩
  · exact ⟨pc, (joins.contains h pc).2 (.inr new)⟩

/-- What a map that was empty holds are the points that it has been given. -/
theorem contains_addAll_empty (points : List (Hash × Nat)) :
    (empty.addAll points).contains h pc = true ↔ (h, pc) ∈ points := by
  rw [(empty.joins_addAll points).contains, not_contains_empty]
  simp

theorem points_addAll_empty (points : List (Hash × Nat)) :
    (empty.addAll points).points = points.dedup.length := by
  have none : empty.points = 0 := rfl
  rw [(empty.joins_addAll points).points, none, Nat.zero_add]
  simp [not_contains_empty]

/-- A point is new to a map where it raises the number of points. -/
theorem insert_isNew_iff (c : Coverage) (h : Hash) (pc : Nat) :
    (c.insert h pc).1 = true ↔ (c.insert h pc).2.points = c.points + 1 := by
  have isNew : (c.insert h pc).1 = !c.contains h pc := rfl
  have grows : (c.insert h pc).2.points = _ := (c.joins_addAll [(h, pc)]).points
  rw [isNew, grows]
  cases known : c.contains h pc <;> simp [known]

/-! ## One merge -/

theorem contains_foldl_insert (pcs found : Std.ExtTreeSet Nat) (pc : Nat) :
    (pcs.foldl (fun found pc => found.insert pc) found).contains pc = true ↔
      found.contains pc = true ∨ pcs.contains pc = true := by
  have each : ∀ (list : List Nat) (found : Std.ExtTreeSet Nat),
      (list.foldl (fun found pc => found.insert pc) found).contains pc = true ↔
        found.contains pc = true ∨ pc ∈ list := by
    intro list
    induction list with
    | nil => simp
    | cons first list ih =>
        intro found
        rw [List.foldl_cons, ih, Std.ExtTreeSet.contains_insert, Bool.or_eq_true, beq_iff_eq,
          Std.compare_eq_iff_eq, List.mem_cons, or_comm (a := first = pc), or_assoc,
          eq_comm (a := first)]
  rw [Std.ExtTreeSet.foldl_eq_foldl_toList, each, Std.ExtTreeSet.mem_toList,
    Std.ExtTreeSet.contains_iff_mem (t := pcs)]

/-- One digest of a merge: its points are joined to those that are kept under it. -/
def mergeCode (c : Coverage) (code : Hash × Std.ExtTreeSet Nat) : Coverage :=
  ⟨c.codes.insert code.1
    (code.2.foldl (fun found pc => found.insert pc) (c.codes.getD code.1 ∅))⟩

theorem merge_eq_foldl (c d : Coverage) : c.merge d = d.codes.toList.foldl mergeCode c := by
  have each : ∀ (list : List (Hash × Std.ExtTreeSet Nat)) (c : Coverage),
      (⟨list.foldl (fun codes code => codes.insert code.1
        (code.2.foldl (fun found pc => found.insert pc) (codes.getD code.1 ∅))) c.codes⟩ :
        Coverage) = list.foldl mergeCode c := by
    intro list
    induction list with
    | nil => exact fun c => rfl
    | cons code list ih => exact fun c => ih (c.mergeCode code)
  rw [merge, Std.ExtTreeMap.foldl_eq_foldl_toList]
  exact each _ c

theorem contains_mergeCode (c : Coverage) (code : Hash × Std.ExtTreeSet Nat) :
    (c.mergeCode code).contains h pc = true ↔
      c.contains h pc = true ∨ code.1 = h ∧ code.2.contains pc = true := by
  by_cases same : code.1 = h
  · subst same
    simp only [contains, reached, mergeCode, Std.ExtTreeMap.getD_insert_self, true_and]
    exact contains_foldl_insert _ _ _
  · simp [contains, reached, mergeCode, Std.ExtTreeMap.getD_insert, same]

theorem mem_codes_mergeCode (c : Coverage) (code : Hash × Std.ExtTreeSet Nat) :
    h ∈ (c.mergeCode code).codes ↔ h ∈ c.codes ∨ code.1 = h := by
  rw [mergeCode, Std.ExtTreeMap.mem_insert, Std.compare_eq_iff_eq, or_comm]

/-- A merge joins the points of two maps. -/
theorem contains_merge (c d : Coverage) (h : Hash) (pc : Nat) :
    (c.merge d).contains h pc = true ↔ c.contains h pc = true ∨ d.contains h pc = true := by
  have each : ∀ (list : List (Hash × Std.ExtTreeSet Nat)) (c : Coverage),
      (list.foldl mergeCode c).contains h pc = true ↔
        c.contains h pc = true ∨ ∃ pcs, (h, pcs) ∈ list ∧ pcs.contains pc = true := by
    intro list
    induction list with
    | nil => simp
    | cons code list ih =>
        intro c
        rw [List.foldl_cons, ih, contains_mergeCode, or_assoc]
        apply or_congr_right
        constructor
        · rintro (⟨rfl, reached⟩ | ⟨pcs, listed, reached⟩)
          · exact ⟨code.2, List.mem_cons_self, reached⟩
          · exact ⟨pcs, List.mem_cons_of_mem _ listed, reached⟩
        · rintro ⟨pcs, listed, reached⟩
          rcases List.mem_cons.1 listed with rfl | listed
          · exact .inl ⟨rfl, reached⟩
          · exact .inr ⟨pcs, listed, reached⟩
  rw [merge_eq_foldl, each]
  apply or_congr_right
  simp only [Std.ExtTreeMap.mem_toList_iff_getElem?_eq_some]
  constructor
  · rintro ⟨pcs, found, reached⟩
    rw [contains_of_getElem? found]
    exact reached
  · intro reached
    have found := Std.ExtTreeMap.getElem?_eq_some_getElem (mem_codes_of_contains reached)
    rw [contains_of_getElem? found] at reached
    exact ⟨_, found, reached⟩

/-- A merge keeps the digests of two maps. -/
theorem mem_codes_merge (c d : Coverage) (h : Hash) :
    h ∈ (c.merge d).codes ↔ h ∈ c.codes ∨ h ∈ d.codes := by
  have each : ∀ (list : List (Hash × Std.ExtTreeSet Nat)) (c : Coverage),
      h ∈ (list.foldl mergeCode c).codes ↔ h ∈ c.codes ∨ ∃ pcs, (h, pcs) ∈ list := by
    intro list
    induction list with
    | nil => simp
    | cons code list ih =>
        intro c
        rw [List.foldl_cons, ih, mem_codes_mergeCode, or_assoc]
        simp only [List.mem_cons, exists_or, Prod.ext_iff]
        simp [eq_comm]
  rw [merge_eq_foldl, each]
  simp only [Std.ExtTreeMap.mem_toList_iff_getElem?_eq_some]
  rw [← Option.isSome_iff_exists, ← Std.ExtTreeMap.mem_iff_isSome_getElem?]

/-- A map that is merged into itself stays as it is. -/
theorem merge_self (c : Coverage) : c.merge c = c := by
  apply ext_contains
  · intro h
    rw [mem_codes_merge, or_self]
  · intro h pc
    rw [Bool.eq_iff_iff, contains_merge, or_self]

theorem Tight.merge (hc : c.Tight) (hd : d.Tight) : (c.merge d).Tight := by
  rw [tight_iff] at hc hd ⊢
  intro h kept
  rcases (mem_codes_merge c d h).1 kept with kept | kept
  · obtain ⟨pc, reached⟩ := hc h kept
    exact ⟨pc, (contains_merge c d h pc).2 (.inl reached)⟩
  · obtain ⟨pc, reached⟩ := hd h kept
    exact ⟨pc, (contains_merge c d h pc).2 (.inr reached)⟩

end Coverage

/-! ## Many merges -/

section Merges

variable {ι α β : Type} [DecidableEq ι]

/-- One of several values is joined with another of them: a call names the value that changes, and
the one that comes into it. -/
def joinInto (join : α → α → α) (values : ι → α) (call : ι × ι) : ι → α :=
  Function.update values call.1 (join (values call.1) (values call.2))

/-- The values after some calls. -/
def joinAll (join : α → α → α) (calls : List (ι × ι)) (values : ι → α) : ι → α :=
  calls.foldl (joinInto join) values

/-- The values that have come into each value, itself included. -/
def sources (calls : List (ι × ι)) : ι → List ι := joinAll (· ++ ·) calls fun i => [i]

theorem joinInto_of_ne (join : α → α → α) (values : ι → α) {call : ι × ι} {i : ι}
    (other : i ≠ call.1) : joinInto join values call i = values i :=
  Function.update_of_ne other _ _

theorem joinInto_self (join : α → α → α) (values : ι → α) (call : ι × ι) :
    joinInto join values call call.1 = join (values call.1) (values call.2) :=
  Function.update_self _ _ _

/-- What two ways of joining keep between the values, a call keeps. -/
theorem joinInto_rel {R : α → β → Prop} {join : α → α → α} {join' : β → β → β}
    (joins : ∀ {a b a' b'}, R a a' → R b b' → R (join a b) (join' a' b')) {values : ι → α}
    {values' : ι → β} (start : ∀ i, R (values i) (values' i)) (call : ι × ι) (i : ι) :
    R (joinInto join values call i) (joinInto join' values' call i) := by
  by_cases same : i = call.1
  · subst same
    rw [joinInto_self, joinInto_self]
    exact joins (start _) (start _)
  · rw [joinInto_of_ne join values same, joinInto_of_ne join' values' same]
    exact start i

/-- What two ways of joining keep between the values, any calls keep. -/
theorem joinAll_rel {R : α → β → Prop} {join : α → α → α} {join' : β → β → β}
    (joins : ∀ {a b a' b'}, R a a' → R b b' → R (join a b) (join' a' b')) {values : ι → α}
    {values' : ι → β} (start : ∀ i, R (values i) (values' i)) (calls : List (ι × ι)) (i : ι) :
    R (joinAll join calls values i) (joinAll join' calls values' i) := by
  induction calls generalizing values values' with
  | nil => exact start i
  | cons call calls ih => exact ih (joinInto_rel joins start call)

end Merges

namespace Coverage

variable {ι : Type} {shares : ι → List (Hash × Nat)}

/-- The map is tight and holds the points of some of the shares. -/
structure Holds (shares : ι → List (Hash × Nat)) (c : Coverage) (workers : List ι) : Prop where
  tight : c.Tight
  contains : ∀ h pc, c.contains h pc = true ↔ ∃ i ∈ workers, (h, pc) ∈ shares i

theorem holds_share (i : ι) : Holds shares (empty.addAll (shares i)) [i] where
  tight := tight_empty.addAll _
  contains h pc := by
    rw [contains_addAll_empty]
    simp

theorem Holds.merge {c d : Coverage} {workers others : List ι} (hc : Holds shares c workers)
    (hd : Holds shares d others) : Holds shares (c.merge d) (workers ++ others) where
  tight := hc.tight.merge hd.tight
  contains h pc := by
    rw [contains_merge, hc.contains, hd.contains]
    simp only [List.mem_append, or_and_right, exists_or]

variable [DecidableEq ι]

/-- The maps after some merges. -/
def mergeAll (calls : List (ι × ι)) (maps : ι → Coverage) : ι → Coverage := joinAll merge calls maps

/-- After any merges, a map holds the points of the shares that have come into it. -/
theorem holds_mergeAll (shares : ι → List (Hash × Nat)) (calls : List (ι × ι)) (i : ι) :
    Holds shares (mergeAll calls (fun i => empty.addAll (shares i)) i) (sources calls i) :=
  joinAll_rel Holds.merge holds_share calls i

/-- Points are shared out over maps that were empty, and then the maps are merged, in any order and
nesting and each as often as one likes.  No map ever has an empty digest.  One into which all of
them have come is the map that is given all points directly, in any order and as often as one likes:
it counts every point once.  A point is new to a map where it raises the number of points by one,
and a merge takes no point from any map and leaves the one that it reads. -/
theorem merges_lose_nothing (shares : ι → List (Hash × Nat)) (calls : List (ι × ι)) :
    (∀ i, (mergeAll calls (fun i => empty.addAll (shares i)) i).Tight) ∧
      (∀ (target : ι) (direct : List (Hash × Nat)), (∀ i, i ∈ sources calls target) →
        (∀ p, p ∈ direct ↔ ∃ i, p ∈ shares i) →
          mergeAll calls (fun i => empty.addAll (shares i)) target = empty.addAll direct ∧
          (mergeAll calls (fun i => empty.addAll (shares i)) target).points =
            direct.dedup.length) ∧
      (∀ (c : Coverage) (h : Hash) (pc : Nat),
        (c.insert h pc).1 = true ↔ (c.insert h pc).2.points = c.points + 1) ∧
      ∀ (maps : ι → Coverage) (call : ι × ι),
        (∀ i h pc, (maps i).contains h pc = true →
          (joinInto merge maps call i).contains h pc = true) ∧
        joinInto merge maps call call.2 = maps call.2 := by
  refine ⟨fun i => (holds_mergeAll shares calls i).tight, ?_, insert_isNew_iff, ?_⟩
  · intro target direct all same
    have holds := holds_mergeAll shares calls target
    have equal : mergeAll calls (fun i => empty.addAll (shares i)) target =
        empty.addAll direct := by
      apply holds.tight.ext (tight_empty.addAll direct)
      intro h pc
      rw [holds.contains, contains_addAll_empty, same]
      exact ⟨fun ⟨i, _, shared⟩ => ⟨i, shared⟩, fun ⟨i, shared⟩ => ⟨i, all i, shared⟩⟩
    exact ⟨equal, equal ▸ points_addAll_empty direct⟩
  · intro maps call
    constructor
    · intro i h pc reached
      by_cases same : i = call.1
      · subst same
        rw [joinInto_self]
        exact (contains_merge _ _ h pc).2 (.inl reached)
      · rw [joinInto_of_ne _ _ same]
        exact reached
    · by_cases same : call.2 = call.1
      · rw [same, joinInto_self, same, merge_self]
      · exact joinInto_of_ne _ _ same

/-- Three workers that share five insertions of three points out among them. -/
def threeShares : Fin 3 → List (Hash × Nat)
  | 0 => [(7, 1), (7, 2)]
  | 1 => [(7, 2)]
  | 2 => [(9, 1), (7, 1)]

theorem threeShares_merged :
    mergeAll [(2, 1), (0, 2), (1, 0), (0, 1)] (fun i => empty.addAll (threeShares i)) 0 =
        empty.addAll [(9, 1), (7, 2), (7, 1)] ∧
      (mergeAll [(2, 1), (0, 2), (1, 0), (0, 1)] (fun i => empty.addAll (threeShares i))
        0).points = 3 := by
  obtain ⟨_, merged, _⟩ := merges_lose_nothing threeShares [(2, 1), (0, 2), (1, 0), (0, 1)]
  have same : ∀ p, p ∈ [((9 : Hash), 1), (7, 2), (7, 1)] ↔ ∃ i, p ∈ threeShares i := by
    intro p
    simp [threeShares, Fin.exists_fin_succ]
    tauto
  exact merged 0 [(9, 1), (7, 2), (7, 1)] (by decide) same

end Coverage

end EvmHarness
