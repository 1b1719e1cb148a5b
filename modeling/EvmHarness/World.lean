import EvmHarness.Account
set_option autoImplicit false

/-!
# The world around the frames

What executions change besides their frames: the account records, the addresses touched in the
transaction and the logs.
-/

namespace EvmHarness

/-- A log: the account that wrote it, up to four words to find it by, and data. -/
structure Log where
  address : Address
  topics : List Hash
  data : ByteArray
  deriving DecidableEq, Inhabited

/-- What executions change besides their frames. -/
structure World where
  accounts : Accounts
  /-- the addresses touched in the transaction -/
  accessed : Std.ExtTreeSet Address
  /-- the logs of the transaction, the oldest first -/
  logs : Array Log
  deriving DecidableEq

namespace World

/-- The world without accounts. -/
def empty : World := ⟨∅, ∅, #[]⟩

instance : Inhabited World := ⟨empty⟩

/-- The world with its account records changed. -/
def mapAccounts (w : World) (change : Accounts → Accounts) : World :=
  { w with accounts := change w.accounts }

/-- The world with an address touched. -/
def touch (w : World) (a : Address) : World := { w with accessed := w.accessed.insert a }

/-- The world with one more log. -/
def addLog (w : World) (log : Log) : World := { w with logs := w.logs.push log }

/-- The world with earlier account records and only the first `mark` logs.  Touched addresses
stay touched. -/
def revert (w : World) (accounts : Accounts) (mark : Nat) : World :=
  { w with accounts := accounts, logs := w.logs.take mark }

@[simp] theorem mapAccounts_accounts (w : World) (change : Accounts → Accounts) :
    (w.mapAccounts change).accounts = change w.accounts := rfl

@[simp] theorem mapAccounts_logs (w : World) (change : Accounts → Accounts) :
    (w.mapAccounts change).logs = w.logs := rfl

@[simp] theorem touch_accounts (w : World) (a : Address) :
    (w.touch a).accounts = w.accounts := rfl

@[simp] theorem touch_logs (w : World) (a : Address) : (w.touch a).logs = w.logs := rfl

@[simp] theorem addLog_accounts (w : World) (log : Log) :
    (w.addLog log).accounts = w.accounts := rfl

@[simp] theorem addLog_logs (w : World) (log : Log) :
    (w.addLog log).logs = w.logs.push log := rfl

@[simp] theorem revert_accounts (w : World) (accounts : Accounts) (mark : Nat) :
    (w.revert accounts mark).accounts = accounts := rfl

@[simp] theorem revert_logs (w : World) (accounts : Accounts) (mark : Nat) :
    (w.revert accounts mark).logs = w.logs.extract 0 mark := rfl

end World

end EvmHarness
