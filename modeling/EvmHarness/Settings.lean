import EvmHarness.Address.Text
import EvmHarness.Gas
import EvmHarness.Text.Quoted
import EvmHarness.Word.Literal
set_option autoImplicit false

/-!
# Settings

What an execution uses where the command line says nothing.  A new value is checked before it is
taken; the sender and its balance are kept as they were written and read when they are needed.
-/

namespace EvmHarness

/-- The settings. -/
structure Settings where
  /-- the gas of each transaction, and the most that one may have -/
  gasLimit : UInt64
  /-- whether executions record coverage -/
  coverage : Bool
  /-- the account that sends transactions, as written -/
  sender : String
  /-- what the sender owns at first, as written -/
  senderBalance : String
  deriving DecidableEq, Repr

/-- Why settings cannot be read, changed or kept. -/
inductive SettingsFault where
  /-- the value is no amount of gas -/
  | badGasLimit (value : String)
  /-- the value is neither `true` nor `false` -/
  | badFlag (value : String)
  /-- the value is no address -/
  | badSender (value : String) (cause : Address.TextFault)
  /-- the value is no word -/
  | badBalance (value : String) (cause : Word.LiteralFault)
  /-- there is no such setting -/
  | unknownKey (key : String)
  /-- a text does not give every setting a value of its kind -/
  | malformed
  /-- the settings have no text: the gas limit is no integer of 64 bits with a sign -/
  | inexpressible
  /-- there is no file to read -/
  | unreadable
  /-- the file cannot be written -/
  | unwritable
  deriving DecidableEq, Repr, Inhabited

namespace SettingsFault

/-- The text of a fault. -/
def message : SettingsFault → String
  | badGasLimit value => "Parse error: invalid gas limit: '" ++ value ++ "'"
  | badFlag value => "Parse error: invalid boolean: '" ++ value ++ "'"
  | badSender value cause => "Parse error: invalid sender '" ++ value ++ "': " ++ cause.message
  | badBalance value cause => "Parse error: invalid balance '" ++ value ++ "': " ++ cause.message
  | unknownKey key => "invalid key: '" ++ key ++ "' is not a valid configuration key."
  | malformed => "Parse error: failed to parse config file"
  | inexpressible => "Parse error: failed to serialize config"
  | unreadable => "Error: failed to read config file"
  | unwritable => "Error: failed to write config file"

end SettingsFault

namespace Settings

/-- The settings of a user who has not changed any. -/
def initial : Settings :=
  { gasLimit := UInt64.ofNat Gas.defaultLimit
    coverage := false
    sender := "0x0000000000000000000000000000000000010000"
    senderBalance := "0xffffffff" }

instance : Inhabited Settings := ⟨initial⟩

/-- The amount of gas that a text writes: a number literal below 2⁶⁴. -/
def readGas (value : String) : Except SettingsFault UInt64 :=
  match Word.parseLiteral value with
  | .ok w => if w.toNat < UInt64.size then .ok (UInt64.ofNat w.toNat) else .error (.badGasLimit value)
  | .error _ => .error (.badGasLimit value)

/-- The flag that a text names. -/
def readFlag (value : String) : Except SettingsFault Bool :=
  if value = "true" then .ok true
  else if value = "false" then .ok false
  else .error (.badFlag value)

/-- The address that a text writes. -/
def readSender (value : String) : Except SettingsFault Address :=
  (Address.parse value).mapError (.badSender value)

/-- The balance that a text writes. -/
def readBalance (value : String) : Except SettingsFault Word :=
  (Word.parseLiteral value).mapError (.badBalance value)

/-- Gives the setting of a name a new value. -/
def update (s : Settings) (key value : String) : Except SettingsFault Settings :=
  match key with
  | "gas_limit" => (readGas value).map fun gas => { s with gasLimit := gas }
  | "coverage" => (readFlag value).map fun flag => { s with coverage := flag }
  | "sender" => (readSender value).map fun _ => { s with sender := value }
  | "sender_balance" => (readBalance value).map fun _ => { s with senderBalance := value }
  | _ => .error (.unknownKey key)

/-- The address of the sender. -/
def senderAddress (s : Settings) : Except SettingsFault Address := readSender s.sender

/-- The balance of the sender. -/
def balance (s : Settings) : Except SettingsFault Word := readBalance s.senderBalance

/-- The settings as lines for a reader. -/
def describe (s : Settings) : List String :=
  ["Configuration \x7b",
    "    gas_limit: " ++ toString s.gasLimit.toNat ++ ",",
    "    coverage: " ++ (if s.coverage then "true" else "false") ++ ",",
    "    sender: " ++ Text.quote s.sender ++ ",",
    "    sender_balance: " ++ Text.quote s.senderBalance ++ ",",
    "\x7d"]

end Settings

end EvmHarness
