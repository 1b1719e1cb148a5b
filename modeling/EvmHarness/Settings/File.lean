import EvmHarness.FileTree
import EvmHarness.Settings
import EvmHarness.Toml.Lines
set_option autoImplicit false

/-!
# Settings in a file

The file is a document with one key a setting.  Every setting has to be there and be of its kind;
other keys and named tables are passed over.  Where there is no file yet, loading leaves one with
the initial settings.
-/

namespace EvmHarness.Settings

open Toml (Document Table)

/-- The settings as the keys of a document. -/
def toTable (s : Settings) : Table :=
  [("gas_limit", .integer s.gasLimit.toNat), ("coverage", .boolean s.coverage),
    ("sender", .text s.sender), ("sender_balance", .text s.senderBalance)]

/-- The settings that a document holds. -/
def ofDocument? (d : Document) : Option Settings :=
  match d.find? "gas_limit", d.find? "coverage", d.find? "sender", d.find? "sender_balance" with
  | some (.integer gas), some (.boolean coverage), some (.text sender), some (.text balance) =>
    if 0 ≤ gas then some ⟨UInt64.ofNat gas.toNat, coverage, sender, balance⟩ else none
  | _, _, _, _ => none

/-- The text of the settings, if the gas limit can be part of a document. -/
def toText (s : Settings) : Except SettingsFault String :=
  if Toml.Value.holdsInteger s.gasLimit.toNat then .ok s.toTable.write else .error .inexpressible

/-- The settings that a text holds. -/
def ofText (text : String) : Except SettingsFault Settings :=
  match (Document.read? text).bind ofDocument? with
  | some s => .ok s
  | none => .error .malformed

/-- Writes the settings to a file. -/
def save (s : Settings) (path : Path) (files : FileTree) : Except SettingsFault FileTree :=
  match s.toText with
  | .error fault => .error fault
  | .ok text =>
    match files.write? path text with
    | some files => .ok files
    | none => .error .unwritable

/-- Reads the settings from a file, after writing the initial ones where there is none. -/
def load (path : Path) (files : FileTree) : Except SettingsFault (Settings × FileTree) := do
  let files ← if files.contains path then .ok files else initial.save path files
  match files.read? path with
  | some text => return (← ofText text, files)
  | none => throw .unreadable

end EvmHarness.Settings
