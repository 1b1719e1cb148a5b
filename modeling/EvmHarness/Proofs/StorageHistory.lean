import EvmHarness.Account.Storage
set_option autoImplicit false

/-!
# Storage answers from its history

What a storage answers hangs on what has been done with it, and can be told without the maps that it
keeps: a slot holds what was stored there last, a transient slot what was stored there last since a
transaction ended, and a slot is paid in full unless something has touched it since then.
`Storage.Reflects` ties the maps to the history; every operation keeps it.
-/

namespace EvmHarness

/-- An operation on a storage. -/
inductive StorageOp where
  | store (key value : Word)
  | storeTransient (key value : Word)
  | load (key : Word)
  | loadTransient (key : Word)
  | readCost (key : Word)
  | writeCost (key value : Word)
  | endTransaction
  deriving DecidableEq, Repr

/-- What an operation on a storage answers. -/
inductive StorageAnswer where
  | nothing
  | value (value : Word)
  | cost (gas : Nat)
  deriving DecidableEq, Repr

namespace StorageOp

/-- The answer of the operation and the storage after it. -/
def perform (s : Storage) : StorageOp → StorageAnswer × Storage
  | store key value => (.nothing, s.store key value)
  | storeTransient key value => (.nothing, s.storeTransient key value)
  | load key => (.value (s.load key).1, (s.load key).2)
  | loadTransient key => (.value (s.transientValue key), s)
  | readCost key => (.cost (s.readCost key).1, (s.readCost key).2)
  | writeCost key value => (.cost (s.writeCost key value).1, (s.writeCost key value).2)
  | endTransaction => (.nothing, s.endTransaction)

/-- The storage after some operations. -/
def performAll (s : Storage) (ops : List StorageOp) : Storage :=
  ops.foldl (fun s op => (op.perform s).2) s

/-! ## What the history tells

A history has its latest operation first. -/

/-- What the operation stores in a slot. -/
def stored (key : Word) : StorageOp → Option Word
  | store k value => if k = key then some value else none
  | _ => none

/-- What the operation stores in a transient slot. -/
def storedTransient (key : Word) : StorageOp → Option Word
  | storeTransient k value => if k = key then some value else none
  | _ => none

/-- The slot that the operation touches.  Transient slots are not touched. -/
def touched : StorageOp → Option Word
  | store key _ | load key | readCost key | writeCost key _ => some key
  | _ => none

/-- The operation may change a persistent slot. -/
def writesPersistent : StorageOp → Bool
  | store _ _ => true
  | _ => false

/-- The operation may change a transient slot. -/
def writesTransient : StorageOp → Bool
  | storeTransient _ _ | endTransaction => true
  | _ => false

/-- What has been done since a transaction ended last. -/
def sinceEnd (past : List StorageOp) : List StorageOp :=
  past.takeWhile fun op => op ≠ endTransaction

/-- What was stored last in a slot, and zero where nothing was. -/
def lastStored (past : List StorageOp) (key : Word) : Word :=
  (past.findSome? (stored key)).getD 0

/-- What was stored last in a transient slot of the transaction, and zero where nothing was. -/
def lastStoredTransient (past : List StorageOp) (key : Word) : Word :=
  ((sinceEnd past).findSome? (storedTransient key)).getD 0

/-- Something has touched the slot in the transaction. -/
def Touched (past : List StorageOp) (key : Word) : Prop :=
  ∃ op ∈ sinceEnd past, op.touched = some key

instance (past : List StorageOp) (key : Word) : Decidable (Touched past key) :=
  inferInstanceAs (Decidable (∃ op ∈ sinceEnd past, op.touched = some key))

/-- The answer that is due to the operation after a history. -/
def due (past : List StorageOp) : StorageOp → StorageAnswer
  | load key => .value (lastStored past key)
  | loadTransient key => .value (lastStoredTransient past key)
  | readCost key => .cost (if Touched past key then 100 else 2100)
  | writeCost key value =>
    let base :=
      if value = lastStored past key then 100
      else if lastStored past key = 0 then 20000
      else 2900
    .cost (base + if Touched past key then 0 else 2100)
  | store _ _ | storeTransient _ _ | endTransaction => .nothing

variable (op : StorageOp) (past : List StorageOp) (key : Word)

theorem lastStored_cons :
    lastStored (op :: past) key = (op.stored key).getD (lastStored past key) := by
  rw [lastStored, List.findSome?_cons]
  cases op.stored key <;> rfl

theorem sinceEnd_cons :
    sinceEnd (op :: past) = if op = endTransaction then [] else op :: sinceEnd past := by
  rw [sinceEnd, List.takeWhile_cons]
  by_cases ended : op = endTransaction
  · simp [ended]
  · simp [ended, sinceEnd]

theorem lastStoredTransient_cons :
    lastStoredTransient (op :: past) key = if op = endTransaction then 0
      else (op.storedTransient key).getD (lastStoredTransient past key) := by
  rw [lastStoredTransient, sinceEnd_cons]
  split
  · rfl
  · rw [List.findSome?_cons]
    cases op.storedTransient key <;> rfl

theorem touched_cons_iff :
    Touched (op :: past) key ↔ op ≠ endTransaction ∧ (op.touched = some key ∨ Touched past key) := by
  rw [Touched, sinceEnd_cons]
  split
  · rename_i ended
    simp [ended]
  · rename_i going
    simp [going, Touched]

end StorageOp

namespace Storage

open StorageOp

variable (s : Storage) (op : StorageOp) (key : Word)

/-! ## What one operation changes -/

theorem value_perform : (op.perform s).2.value key = (op.stored key).getD (s.value key) := by
  cases op with
  | store k value =>
      show (put s.persistent k value).getD key 0 = _
      rw [getD_put, stored]
      split <;> rfl
  | storeTransient | load | loadTransient | readCost | writeCost | endTransaction => rfl

theorem transientValue_perform :
    (op.perform s).2.transientValue key = if op = .endTransaction then 0
      else (op.storedTransient key).getD (s.transientValue key) := by
  cases op with
  | storeTransient k value =>
      show (put s.transient k value).getD key 0 = _
      simp only [reduceCtorEq, if_false, getD_put, storedTransient]
      split <;> rfl
  | endTransaction => rw [if_pos rfl]; exact Std.ExtTreeMap.getD_empty
  | store | load | loadTransient | readCost | writeCost =>
      simp only [reduceCtorEq, if_false]
      rfl

theorem mem_warm_perform_iff :
    key ∈ (op.perform s).2.warm ↔
      op ≠ .endTransaction ∧ (op.touched = some key ∨ key ∈ s.warm) := by
  have insert (k : Word) : key ∈ s.warm.insert k ↔ some k = some key ∨ key ∈ s.warm := by
    rw [Std.ExtTreeSet.mem_insert, Option.some.injEq, Std.LawfulEqCmp.compare_eq_iff_eq]
  cases op with
  | store k _ | load k | readCost k | writeCost k _ =>
      simp only [ne_eq, reduceCtorEq, not_false_eq_true, true_and]
      exact insert k
  | storeTransient | loadTransient => simp [perform, touched, storeTransient]
  | endTransaction => simp [perform, endTransaction]

/-- No slot holds a zero: it is not there instead. -/
structure NoZeros (s : Storage) : Prop where
  persistent : ∀ key : Word, s.persistent[key]? ≠ some (0 : Word)
  transient : ∀ key : Word, s.transient[key]? ≠ some (0 : Word)

theorem put_ne_zero {slots : Std.ExtTreeMap Word Word}
    (h : ∀ key : Word, slots[key]? ≠ some (0 : Word)) (k value key : Word) :
    (put slots k value)[key]? ≠ some (0 : Word) := by
  unfold put
  split
  · rw [Std.ExtTreeMap.getElem?_erase]
    split
    · exact nofun
    · exact h key
  · rename_i nonzero
    rw [Std.ExtTreeMap.getElem?_insert]
    split
    · exact fun zero => nonzero (Option.some.inj zero)
    · exact h key

variable {s}

theorem NoZeros.perform (h : s.NoZeros) : (op.perform s).2.NoZeros := by
  cases op with
  | store k value => exact ⟨put_ne_zero h.persistent k value, h.transient⟩
  | storeTransient k value => exact ⟨h.persistent, put_ne_zero h.transient k value⟩
  | load | loadTransient | readCost | writeCost => exact ⟨h.persistent, h.transient⟩
  | endTransaction => exact ⟨h.persistent, fun key => by simp [StorageOp.perform, endTransaction]⟩

/-! ## What the history is to the maps -/

/-- The maps of the storage hold what its history tells. -/
structure Reflects (s : Storage) (past : List StorageOp) : Prop where
  value : ∀ key, s.value key = lastStored past key
  transient : ∀ key, s.transientValue key = lastStoredTransient past key
  warm : ∀ key, key ∈ s.warm ↔ Touched past key
  filled : s.NoZeros

variable {past : List StorageOp}

theorem reflects_empty : empty.Reflects [] where
  value _ := Std.ExtTreeMap.getD_empty
  transient _ := Std.ExtTreeMap.getD_empty
  warm key := by simp [empty, Touched, sinceEnd]
  filled := ⟨fun key => by simp [empty], fun key => by simp [empty]⟩

/-- An operation joins the history. -/
theorem Reflects.perform (h : s.Reflects past) : (op.perform s).2.Reflects (op :: past) where
  value key := by rw [value_perform, lastStored_cons, h.value]
  transient key := by rw [transientValue_perform, lastStoredTransient_cons, h.transient]
  warm key := by rw [mem_warm_perform_iff, touched_cons_iff, h.warm]
  filled := h.filled.perform op

/-- A storage answers what is due to its history. -/
theorem Reflects.answer (h : s.Reflects past) : (op.perform s).1 = op.due past := by
  have warm (key : Word) : s.warm.contains key = decide (Touched past key) := by
    rw [Bool.eq_iff_iff, decide_eq_true_iff, ← h.warm, Std.ExtTreeSet.mem_iff_contains]
  cases op with
  | load key => exact congrArg StorageAnswer.value (h.value key)
  | loadTransient key => exact congrArg StorageAnswer.value (h.transient key)
  | readCost key => simp [StorageOp.perform, due, readCost, warm, Gas.warmSlot, Gas.coldSlot]
  | writeCost key value =>
      simp only [StorageOp.perform, due, writeCost, warm, h.value, Gas.warmSlot, Gas.coldSlot,
        Gas.fillSlot, Gas.changeSlot, decide_eq_true_eq, eq_comm (a := value)]
  | store | storeTransient | endTransaction => rfl

/-- All operations from an empty storage on are its history. -/
theorem Reflects.performAll (h : s.Reflects past) (ops : List StorageOp) :
    (StorageOp.performAll s ops).Reflects (ops.reverse ++ past) := by
  induction ops generalizing s past with
  | nil => exact h
  | cons op ops ih =>
      rw [List.reverse_cons, List.append_assoc]
      exact ih (h.perform op)

/-! ## Two maps apart -/

variable {t : Storage}

/-- The persistent slots are made by what is stored there, whatever is done besides. -/
theorem persistent_performAll (h : s.persistent = t.persistent) (ops : List StorageOp) :
    (StorageOp.performAll s ops).persistent =
      (StorageOp.performAll t (ops.filter writesPersistent)).persistent := by
  induction ops generalizing s t with
  | nil => exact h
  | cons op ops ih =>
      cases op with
      | store k value =>
          rw [List.filter_cons_of_pos rfl]
          exact ih (congrArg (put · k value) h)
      | storeTransient | load | loadTransient | readCost | writeCost | endTransaction =>
          rw [List.filter_cons_of_neg Bool.false_ne_true]
          exact ih h

/-- The transient slots are made by what is stored there and by the ends of transactions. -/
theorem transient_performAll (h : s.transient = t.transient) (ops : List StorageOp) :
    (StorageOp.performAll s ops).transient =
      (StorageOp.performAll t (ops.filter writesTransient)).transient := by
  induction ops generalizing s t with
  | nil => exact h
  | cons op ops ih =>
      cases op with
      | storeTransient k value =>
          rw [List.filter_cons_of_pos rfl]
          exact ih (congrArg (put · k value) h)
      | endTransaction =>
          rw [List.filter_cons_of_pos rfl]
          exact ih rfl
      | store | load | loadTransient | readCost | writeCost =>
          rw [List.filter_cons_of_neg Bool.false_ne_true]
          exact ih h

/-- Whatever has been done with a storage that is empty at first, each operation answers what is due
to that history.  No slot holds a zero, and neither of the two maps can tell what has been done with
the other one. -/
theorem answers_from_history (ops : List StorageOp) :
    (∀ op : StorageOp, (op.perform (StorageOp.performAll empty ops)).1 = op.due ops.reverse) ∧
      (StorageOp.performAll empty ops).NoZeros ∧
      (StorageOp.performAll empty ops).persistent =
        (StorageOp.performAll empty (ops.filter writesPersistent)).persistent ∧
      (StorageOp.performAll empty ops).transient =
        (StorageOp.performAll empty (ops.filter writesTransient)).transient := by
  have reflects := reflects_empty.performAll ops
  rw [List.append_nil] at reflects
  exact ⟨fun op => reflects.answer op, reflects.filled, persistent_performAll rfl ops,
    transient_performAll rfl ops⟩

/-- A slot of an earlier transaction is changed: it is cold again, and its transient namesake does
not count. -/
example : ((StorageOp.writeCost 1 9).perform
    (StorageOp.performAll empty [.store 1 5, .endTransaction, .storeTransient 1 7])).1 =
      .cost 5000 := by
  decide +kernel

end Storage

end EvmHarness
