import EvmHarness.Settings.File
import EvmHarness.Proofs.DocumentRoundTrip
import Mathlib.Algebra.Ring.Nat
set_option autoImplicit false

/-!
# Settings that changes leave

Settings are changed value by value, and a refused change leaves them as they are (`changeAll`).
What changes leave names a sender and a balance that can be read (`IsReadable.changeAll`), and it
comes back from the file it is saved in, up to a gas limit that no document can hold
(`changed_settings_kept`): limits are accepted up to 2⁶⁴, and documents end at 2⁶³.
-/

namespace EvmHarness.Settings

open Toml (Document Value)

/-- The settings after a change; a refused one leaves them as they are. -/
def change (s : Settings) (key value : String) : Settings :=
  match s.update key value with
  | .ok changed => changed
  | .error _ => s

/-- The settings after changes, one after the other. -/
def changeAll (s : Settings) (changes : List (String × String)) : Settings :=
  changes.foldl (fun s (key, value) => s.change key value) s

/-! ## What changes leave -/

/-- The sender and its balance can be read. -/
structure IsReadable (s : Settings) : Prop where
  sender : ∃ a, s.senderAddress = .ok a
  balance : ∃ w, s.balance = .ok w

theorem isReadable_initial : initial.IsReadable where
  sender := ⟨0x10000, rfl⟩
  balance := ⟨0xffffffff, rfl⟩

/-- An accepted change gives one setting a value that can be read. -/
theorem update_eq_ok {s changed : Settings} {key value : String}
    (h : s.update key value = .ok changed) :
    (∃ gas, readGas value = .ok gas ∧ changed = { s with gasLimit := gas }) ∨
    (∃ flag, readFlag value = .ok flag ∧ changed = { s with coverage := flag }) ∨
    (∃ a, readSender value = .ok a ∧ changed = { s with sender := value }) ∨
    (∃ w, readBalance value = .ok w ∧ changed = { s with senderBalance := value }) := by
  unfold update at h
  split at h
  · cases hr : readGas value with
    | error fault => simp [hr, Except.map] at h
    | ok gas => exact .inl ⟨gas, rfl, by simpa [hr, Except.map] using h.symm⟩
  · cases hr : readFlag value with
    | error fault => simp [hr, Except.map] at h
    | ok flag => exact .inr (.inl ⟨flag, rfl, by simpa [hr, Except.map] using h.symm⟩)
  · cases hr : readSender value with
    | error fault => simp [hr, Except.map] at h
    | ok a => exact .inr (.inr (.inl ⟨a, rfl, by simpa [hr, Except.map] using h.symm⟩))
  · cases hr : readBalance value with
    | error fault => simp [hr, Except.map] at h
    | ok w => exact .inr (.inr (.inr ⟨w, rfl, by simpa [hr, Except.map] using h.symm⟩))
  · cases h

theorem IsReadable.change {s : Settings} (h : s.IsReadable) (key value : String) :
    (s.change key value).IsReadable := by
  unfold Settings.change
  split
  · obtain ⟨_, -, rfl⟩ | ⟨_, -, rfl⟩ | ⟨a, read, rfl⟩ | ⟨w, read, rfl⟩ := update_eq_ok ‹_›
    · exact ⟨h.sender, h.balance⟩
    · exact ⟨h.sender, h.balance⟩
    · exact ⟨⟨a, read⟩, h.balance⟩
    · exact ⟨h.sender, ⟨w, read⟩⟩
  · exact h

theorem IsReadable.changeAll {s : Settings} (h : s.IsReadable)
    (changes : List (String × String)) : (s.changeAll changes).IsReadable := by
  induction changes generalizing s with
  | nil => exact h
  | cons c changes ih => exact ih (h.change c.1 c.2)

/-! ## What is read back -/

/-- The keys of settings are read back if the gas limit is an integer that a document can hold. -/
theorem isKept_toTable {s : Settings} (h : Value.holdsInteger s.gasLimit.toNat) :
    s.toTable.IsKept where
  key := by
    simp only [toTable, List.forall_mem_cons]
    decide +kernel
  value := by simp [toTable, Value.IsKept, h]
  once := by
    simp only [toTable, List.map_cons, List.map_nil]
    decide +kernel

theorem ofDocument?_toTable (s : Settings) : ofDocument? ⟨s.toTable, []⟩ = some s := by
  simp [ofDocument?, Document.find?, toTable, List.lookup_cons]

/-- Settings are read back from the text of their keys. -/
theorem ofText_write {s : Settings} (h : Value.holdsInteger s.gasLimit.toNat) :
    ofText s.toTable.write = .ok s := by
  simp [ofText, Toml.read?_write (isKept_toTable h), ofDocument?_toTable]

/-- The gas limits that a document can hold. -/
theorem holdsInteger_iff (gas : UInt64) :
    Value.holdsInteger gas.toNat ↔ gas.toNat < 2 ^ 63 := by
  simp only [Value.holdsInteger, Bool.and_eq_true, decide_eq_true_eq]
  omega

theorem toText_of_lt {s : Settings} (h : s.gasLimit.toNat < 2 ^ 63) :
    s.toText = .ok s.toTable.write :=
  if_pos ((holdsInteger_iff _).2 h)

theorem toText_of_not_lt {s : Settings} (h : ¬s.gasLimit.toNat < 2 ^ 63) :
    s.toText = .error .inexpressible :=
  if_neg fun holds => h ((holdsInteger_iff _).1 holds)

/-- Settings are saved where their gas limit fits a document and the file takes their text. -/
theorem save_eq_ok {s : Settings} {path : Path} {files kept : FileTree} :
    s.save path files = .ok kept ↔
      s.gasLimit.toNat < 2 ^ 63 ∧ files.write? path s.toTable.write = some kept := by
  by_cases hgas : s.gasLimit.toNat < 2 ^ 63
  · simp only [save, toText_of_lt hgas, hgas, true_and]
    cases files.write? path s.toTable.write <;> simp
  · simp only [save, toText_of_not_lt hgas, hgas, false_and, reduceCtorEq]

/-- Settings are loaded from the file they have been saved in. -/
theorem load_of_save {s : Settings} {path : Path} {files kept : FileTree}
    (h : s.save path files = .ok kept) : load path kept = .ok (s, kept) := by
  obtain ⟨hgas, written⟩ := save_eq_ok.1 h
  have read : kept.read? path = some s.toTable.write := FileTree.read?_of_write? written
  have there : kept.contains path := by
    rw [FileTree.contains, Std.ExtTreeMap.contains_eq_isSome_getElem?]
    unfold FileTree.read? at read
    split at read <;> simp_all
  have text : ofText s.toTable.write = .ok s := ofText_write ((holdsInteger_iff _).2 hgas)
  simp only [load, there, if_true, bind, Except.bind, read, text]
  rfl

/-- Whatever changes are made to the initial settings, refused ones among them, the sender and its
balance can be read, and a file that takes any text keeps the settings: they are saved and loaded
again as they are.  The one exception are gas limits from 2⁶³ on, which are accepted and which no
document can hold. -/
theorem changed_settings_kept (changes : List (String × String)) (path : Path) (files : FileTree)
    (writable : ∀ text, ∃ kept, files.write? path text = some kept) :
    let s := initial.changeAll changes
    (∃ a, s.senderAddress = .ok a) ∧ (∃ w, s.balance = .ok w) ∧
      if s.gasLimit.toNat < 2 ^ 63 then
        ∃ kept, s.save path files = .ok kept ∧ load path kept = .ok (s, kept)
      else s.save path files = .error .inexpressible := by
  intro s
  have readable : s.IsReadable := isReadable_initial.changeAll changes
  refine ⟨readable.sender, readable.balance, ?_⟩
  split
  case isTrue hgas =>
    obtain ⟨kept, written⟩ := writable s.toTable.write
    have saved : s.save path files = .ok kept := save_eq_ok.2 ⟨hgas, written⟩
    exact ⟨kept, saved, load_of_save saved⟩
  case isFalse hgas =>
    simp [save, toText_of_not_lt hgas]

/-- A file right below the root takes any text in a tree of the root alone. -/
theorem write?_empty (name text : String) :
    ∃ kept, FileTree.empty.write? [name] text = some kept := by
  have root : FileTree.empty.admitsDirectory [] := by
    simp [FileTree.admitsDirectory, FileTree.read?, FileTree.empty]
  have free : FileTree.empty.isDirectory [name] = false := by
    simp [FileTree.isDirectory, FileTree.empty]
  exact ⟨_, if_pos (by simp [free, Path.parents, root])⟩

/-- Of three changes the second is refused; the other two come back from the file. -/
theorem twoChanges_kept :
    let s : Settings := { initial with gasLimit := 0x1000, senderBalance := "1_000" }
    initial.changeAll [("sender_balance", "1_000"), ("coverage", "maybe"),
      ("gas_limit", "0x1000")] = s ∧
    ∃ kept, s.save ["config.toml"] FileTree.empty = .ok kept ∧
      load ["config.toml"] kept = .ok (s, kept) := by
  have changed : initial.changeAll [("sender_balance", "1_000"), ("coverage", "maybe"),
      ("gas_limit", "0x1000")] =
      { initial with gasLimit := 0x1000, senderBalance := "1_000" } := by decide +kernel
  obtain ⟨-, -, kept⟩ := changed_settings_kept [("sender_balance", "1_000"),
    ("coverage", "maybe"), ("gas_limit", "0x1000")] ["config.toml"] FileTree.empty
    (write?_empty "config.toml")
  rw [changed, if_pos (by decide +kernel)] at kept
  exact ⟨changed, kept⟩

/-- A gas limit of 2⁶³ is accepted, and no file keeps it. -/
theorem largeGasLimit_not_kept :
    let s : Settings := { initial with gasLimit := 0x8000000000000000 }
    initial.changeAll [("gas_limit", "0x8000000000000000")] = s ∧
    initial.update "gas_limit" "0x8000000000000000" = .ok s ∧
    (∀ text, ∃ kept, FileTree.empty.write? ["config.toml"] text = some kept) ∧
    ∀ kept, s.save ["config.toml"] FileTree.empty ≠ .ok kept := by
  refine ⟨by decide +kernel, rfl, write?_empty "config.toml", ?_⟩
  intro kept saved
  have fits := (save_eq_ok.1 saved).1
  exact absurd fits (by decide +kernel)

end EvmHarness.Settings
