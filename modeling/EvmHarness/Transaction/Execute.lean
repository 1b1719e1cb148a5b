import EvmHarness.Transaction
import EvmHarness.Coverage
set_option autoImplicit false

/-!
# Executing transactions

A transaction is prepared, run, and judged by its outcome.  Expected failures are outcomes like
any other, and leave the machine as they found it: nothing is rolled back.  Other failures are
left to a handler.  A successful creation puts the code that was returned in place of the initial
code.
-/

namespace EvmHarness

/-- An action of the harness on a machine. -/
abbrev HarnessM : Type → Type := EStateM TxFault Machine

/-- A way to run a prepared machine to an outcome. -/
abbrev Strategy : Type := Machine → Outcome × Machine

namespace HarnessM

/-- An action that gives the machine a new state or a fault. -/
def ofExcept (act : Machine → Except TxFault Machine) : HarnessM Unit := do
  match act (← get) with
  | .ok m => set m
  | .error fault => throw fault

/-- Replaces the code of an account and keeps the rest of its record. -/
def replaceCode (address : Address) (code : ByteArray) : HarnessM Unit :=
  ofExcept fun m =>
    match m.accounts[address]? with
    | none => .error (.missingAccount address)
    | some record =>
      .ok (m.mapWorld (·.mapAccounts (·.insert address (record.withCode code))))

/-- Replaces the code of the account that the machine executes. -/
def replaceOwnCode (code : ByteArray) : HarnessM Unit := do
  replaceCode (← get).frame.account code

/-- Loads an account for execution. -/
def load (address : Address) : HarnessM Unit :=
  ofExcept fun m =>
    match m.load address with
    | .ok m => .ok m
    | .error _ => .error (.missingAccount address)

/-- Judges the outcome of a transaction that has been run.  The handler decides about unexpected
failures: it accepts the outcome, or says what is reported instead. -/
def conclude (handler : Fault → Except TxFault Unit) (tx : Transaction) (outcome : Outcome) :
    HarnessM Outcome := do
  match outcome, tx.action with
  | .failure fault, _ =>
    if fault.severity ≠ .revert then
      match handler fault with
      | .ok () => pure ()
      | .error reported => throw reported
  | .success code, .create _ =>
    replaceOwnCode code
    load tx.destination
  | .success _, .call _ => pure ()
  return outcome

/-- Executes a transaction by a strategy. -/
def executeWith (gasLimit : UInt64) (handler : Fault → Except TxFault Unit) (strategy : Strategy)
    (tx : Transaction) : HarnessM Outcome := do
  ofExcept (tx.prepare gasLimit)
  let (outcome, m) := strategy (← get)
  set m
  conclude handler tx outcome

/-- The handler that accepts no unexpected failure. -/
def refuse (fault : Fault) : Except TxFault Unit :=
  if fault.severity = .illegal then .error (.illegal fault) else .error (.unclassified fault)

/-- The handler that accepts every failure. -/
def accept (_ : Fault) : Except TxFault Unit := .ok ()

/-- Executes a transaction to its outcome. -/
def execute (gasLimit : UInt64) (tx : Transaction) : HarnessM Outcome :=
  executeWith gasLimit refuse Machine.run tx

/-- Executes a transaction to its outcome and adds the places it reaches to a coverage map,
which is kept whether or not the outcome is accepted. -/
def executeCovered (gasLimit : UInt64) (tx : Transaction) (m : Machine) (c : Coverage) :
    EStateM.Result TxFault Machine Outcome × Coverage :=
  match tx.prepare gasLimit m with
  | .error fault => (.error fault m, c)
  | .ok m =>
    let (outcome, m, c) := Coverage.run m c
    (conclude refuse tx outcome m, c)

end HarnessM

end EvmHarness
