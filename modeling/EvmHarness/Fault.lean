import EvmHarness.Address.Text
set_option autoImplicit false

/-!
# Faults

The closed set of ways in which a frame fails, the text of each, and how the harness takes it:
some are expected, some no well-formed program can cause, and the rest have no class.
-/

namespace EvmHarness

/-- Why a frame failed. -/
inductive Fault where
  /-- the program asked for it, and left data for its caller -/
  | reverted (data : ByteArray)
  /-- the byte is no instruction, or the one that is always invalid -/
  | undefined (opcode : UInt8)
  /-- the frame has too little gas left -/
  | outOfGas (available needed : Nat)
  /-- an account without a record was touched that may not be taken for an empty one -/
  | unknownAccount (address : Address)
  /-- the stack holds too few words -/
  | stackUnderrun
  /-- a jump leads to something other than a jump destination -/
  | badJumpDestination
  /-- the stack would hold too many words -/
  | stackLimitExceeded
  /-- an offset or size reaches past the addressable memory -/
  | memoryOverflow
  /-- a change was tried where none is allowed -/
  | stateChangeWhileStatic
  /-- the return data ends before what was asked of it -/
  | returnDataOverrun
  /-- the code of a new account is too long -/
  | codeTooLarge (limit size : Nat)
  /-- the code of a new account starts with the reserved byte -/
  | reservedCode
  /-- there is no account to execute -/
  | missingAccount (address : Address)
  deriving DecidableEq, Inhabited

/-- How the harness takes a fault. -/
inductive Severity where
  /-- an expected way for a transaction to fail -/
  | revert
  /-- a failure that a well-formed program cannot have -/
  | illegal
  /-- a failure without a class, the mark of a mistake in the harness itself -/
  | unknown
  deriving DecidableEq, Repr, Inhabited

namespace Fault

/-- The class of a fault.  An unknown account ends a transaction like a revert, since it is
looked up outside and the transaction tried again. -/
def severity : Fault → Severity
  | reverted _ | undefined _ | outOfGas _ _ | unknownAccount _ => .revert
  | stackUnderrun | badJumpDestination | stackLimitExceeded | memoryOverflow => .illegal
  | stateChangeWhileStatic | returnDataOverrun | codeTooLarge _ _ | reservedCode
  | missingAccount _ => .unknown

/-- The text of a fault. -/
def message : Fault → String
  | reverted data => "execution reverted (" ++ toString data.size ++ " bytes of data)"
  | undefined opcode => "unrecognized opcode " ++ Hex.markedWidth 2 opcode.toNat
  | outOfGas available needed =>
    "out of gas: " ++ toString needed ++ " needed, " ++ toString available ++ " available"
  | unknownAccount address => "unresolved query: account info for " ++ address.checksum
  | stackUnderrun => "stack underrun"
  | badJumpDestination => "bad jump destination"
  | stackLimitExceeded => "stack limit exceeded"
  | memoryOverflow => "memory offset or size overflow"
  | stateChangeWhileStatic => "state change attempted in static context"
  | returnDataOverrun => "invalid memory access"
  | codeTooLarge limit size =>
    "max code size exceeded: " ++ toString size ++ " > " ++ toString limit
  | reservedCode => "invalid code format"
  | missingAccount address => "no contract at " ++ address.checksum

end Fault

/-- How a frame, or a transaction, ended. -/
inductive Outcome where
  /-- it ended by itself and returned bytes -/
  | success (output : ByteArray)
  /-- it failed -/
  | failure (fault : Fault)
  deriving DecidableEq, Inhabited

namespace Outcome

/-- The fault of an outcome that is no success. -/
def fault? : Outcome → Option Fault
  | success _ => none
  | failure fault => some fault

/-- Whether the outcome is a success. -/
def isSuccess (o : Outcome) : Bool := o.fault?.isNone

/-- Whether the outcome is an expected failure. -/
def isReversion (o : Outcome) : Bool := o.fault?.any (·.severity = .revert)

/-- Whether the outcome is a failure that a well-formed program cannot have. -/
def isIllegal (o : Outcome) : Bool := o.fault?.any (·.severity = .illegal)

/-- The fault that the harness has to decide about: one that is not expected. -/
def unexpected? (o : Outcome) : Option Fault := o.fault?.filter (·.severity ≠ .revert)

/-- The outcome as a line for a reader. -/
def describe : Outcome → String
  | success output => "success " ++ Hex.marked output
  | failure (.reverted data) => "revert " ++ Hex.marked data
  | failure fault =>
    (if fault.severity = .revert then "revert (" else "failure (") ++ fault.message ++ ")"

theorem isSuccess_iff (o : Outcome) : o.isSuccess = true ↔ ∃ output, o = success output := by
  cases o <;> simp [isSuccess, fault?]

end Outcome

end EvmHarness
