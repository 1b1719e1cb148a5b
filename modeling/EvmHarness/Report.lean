import EvmHarness.CommandLine
import EvmHarness.Settings
import EvmHarness.Transaction.Execute
set_option autoImplicit false

/-!
# Executing code on request

Code is put at an address and called there.  It can also be run first, as the code that makes an
account; what it returns is then called, if it ends well.  The report tells the outcome of each
transaction, the logs that the machine holds at the end, and the coverage of both together.
-/

namespace EvmHarness

/-- What an execution on request has shown. -/
structure Report where
  /-- the outcome of making the account, if that was asked for -/
  deployment : Option Outcome
  /-- the outcome of the call, unless making the account failed -/
  call : Option Outcome
  /-- the logs that the machine holds at the end -/
  logs : List Log
  /-- the places reached by both transactions, if they were recorded -/
  coverage : Option Coverage

/-- Why a request to execute code has no report. -/
inductive ExecFault where
  /-- the code or the input is no byte string -/
  | badBytes (cause : Hex.Fault)
  | badTarget (value : String) (cause : Address.TextFault)
  | badSender (value : String) (cause : Address.TextFault)
  /-- the settings hold no sender or no balance -/
  | settings (cause : SettingsFault)
  | transaction (cause : TxFault)
  deriving DecidableEq, Inhabited

namespace ExecFault

/-- The text of a fault. -/
def message : ExecFault → String
  | badBytes cause => "Internal error: " ++ cause.message
  | badTarget value cause => "invalid target '" ++ value ++ "': " ++ cause.message
  | badSender value cause => "invalid sender '" ++ value ++ "': " ++ cause.message
  | settings cause => "Configuration error: " ++ cause.message
  | transaction cause => "Execution error: " ++ cause.message

end ExecFault

/-- A machine between transactions, with the coverage of those before if it is recorded. -/
structure Bench where
  machine : Machine
  coverage : Option Coverage

namespace Bench

/-- Executes a transaction. -/
def execute (b : Bench) (gasLimit : UInt64) (tx : Transaction) :
    Except ExecFault (Outcome × Bench) :=
  match b.coverage with
  | none =>
    match HarnessM.execute gasLimit tx b.machine with
    | .ok outcome m => .ok (outcome, ⟨m, none⟩)
    | .error fault _ => .error (.transaction fault)
  | some c =>
    match HarnessM.executeCovered gasLimit tx b.machine c with
    | (.ok outcome m, c) => .ok (outcome, ⟨m, some c⟩)
    | (.error fault _, _) => .error (.transaction fault)

/-- Puts an account where there is code to call, replacing what is there. -/
def install (b : Bench) (address : Address) (code : ByteArray) : Bench :=
  ⟨b.machine.mapWorld (·.mapAccounts (·.insert address (Account.ofCode code))), b.coverage⟩

/-- What the bench has to tell at the end. -/
def report (b : Bench) (deployment call : Option Outcome) : Report :=
  ⟨deployment, call, b.machine.world.logs.toList, b.coverage⟩

end Bench

/-- A request to execute code with its texts read. -/
structure Execution where
  code : ByteArray
  calldata : ByteArray
  target : Address
  sender : Address
  /-- what the sender owns at first -/
  balance : Word
  gasLimit : UInt64
  create : Bool
  coverage : Bool
  deriving DecidableEq

namespace Execution

/-- A machine on which only the sender has a record. -/
def bench (e : Execution) : Bench :=
  ⟨Machine.initial.mapWorld
      (·.mapAccounts (·.update e.sender fun a => { a with balance := e.balance })),
    if e.coverage then some .empty else none⟩

/-- The transaction that makes the account. -/
def deployment (e : Execution) : Transaction :=
  { Transaction.ofCreate e.sender e.target e.code with gas := e.gasLimit }

/-- The transaction that calls the account. -/
def call (e : Execution) : Transaction :=
  { Transaction.ofCall e.sender e.target e.calldata with gas := e.gasLimit }

/-- Calls the account and reports. -/
def runCall (e : Execution) (b : Bench) (deployment : Option Outcome) :
    Except ExecFault Report := do
  let (outcome, b) ← b.execute e.gasLimit e.call
  return b.report deployment (some outcome)

/-- Executes what is asked for. -/
def run (e : Execution) : Except ExecFault Report :=
  if e.create then do
    let (outcome, b) ← e.bench.execute e.gasLimit e.deployment
    if outcome.isSuccess then e.runCall b (some outcome)
    else return b.report (some outcome) none
  else e.runCall (e.bench.install e.target e.code) none

end Execution

namespace ExecRequest

/-- The sender: the one that is asked for, or else that of the settings. -/
def readSender (r : ExecRequest) (s : Settings) : Except ExecFault Address :=
  match r.sender with
  | some text => (Address.parse text).mapError (.badSender text)
  | none => s.senderAddress.mapError .settings

/-- Reads the texts of a request; the settings fill in what it leaves open. -/
def read (r : ExecRequest) (s : Settings) : Except ExecFault Execution := do
  let code ← (Hex.decode r.code).mapError .badBytes
  let calldata ← (Hex.decode r.calldata).mapError .badBytes
  let target ← (Address.parse r.target).mapError (.badTarget r.target)
  let sender ← r.readSender s
  let balance ← s.balance.mapError .settings
  return { code, calldata, target, sender, balance
           gasLimit := r.gas.getD s.gasLimit
           create := r.create
           coverage := r.coverage || s.coverage }

/-- Executes what is asked for. -/
def report (r : ExecRequest) (s : Settings) : Except ExecFault Report := do
  (← r.read s).run

end ExecRequest

/-- A log as a line for a reader. -/
def Log.describe (l : Log) : String :=
  "log: " ++ l.address.toHex ++
    " [" ++ ", ".intercalate (l.topics.map fun t => Hex.markedWidth 64 t.toNat) ++ "] " ++
    Hex.marked l.data

namespace Report

/-- The report as lines for a reader. -/
def lines (r : Report) : List String :=
  (r.deployment.map fun o => "deployment: " ++ o.describe).toList ++
    (r.call.map fun o => "call: " ++ o.describe).toList ++
    r.logs.map Log.describe ++
    (r.coverage.map fun c =>
      "coverage: " ++ toString c.points ++ " points across " ++ toString c.codes.size ++
        " contracts").toList

end Report

end EvmHarness
