import EvmHarness.Operation.Perform
set_option autoImplicit false

/-!
# The machine

The running frame in its world, the frames suspended below it, and the result once the outermost
frame has ended.  When a frame ends, its caller takes the outcome up; should the caller fail at
that, the failure goes to the caller below.
-/

namespace EvmHarness

/-- A machine. -/
structure Machine where
  setting : Setting
  active : Active
  /-- the suspended frames, the innermost first -/
  suspended : List Suspended
  /-- how the outermost frame ended, once it has -/
  result : Option Outcome
  deriving DecidableEq, Inhabited

/-- Makes the output of a creation the code of the new account, paid for by the callee's gas;
gives the gas that is left. -/
def World.deposit (w : World) (address : Address) (code : ByteArray) (gas : Nat) :
    Except Fault (Nat × World) :=
  let cost := Gas.codeByte * code.size
  if codeSizeLimit < code.size then .error (.codeTooLarge codeSizeLimit code.size)
  else if 0 < code.size ∧ Bytes.byteAt code 0 = reservedByte then .error .reservedCode
  else if gas < cost then .error (.outOfGas gas cost)
  else .ok (gas - cost, w.mapAccounts (·.update address (·.withCode code)))

namespace Suspended

/-- Writes the start of the return data to the place that the call named. -/
def deliver (purpose : Purpose) (data : ByteArray) : FrameM Unit :=
  match purpose with
  | .call offset size =>
    let copied := min size data.size
    FrameM.store offset copied data
  | .create _ => pure ()

/-- Goes on in the caller after its callee failed.  Only a callee that asked to revert hands its
gas and data back. -/
def resumeAfterFault (s : Suspended) (gasLeft : Nat) (fault : Fault) : FrameM Unit := do
  match fault with
  | .reverted data =>
    modify fun f => { f with gas := Saturating.add f.gas gasLeft, returnData := data }
    deliver s.purpose data
  | _ => modify fun f => { f with returnData := ByteArray.empty }
  FrameM.push 0

/-- Goes on in the caller after its callee succeeded. -/
def resumeAfterSuccess (s : Suspended) (gasLeft : Nat) (output : ByteArray) : FrameM Unit := do
  let (data, word) := match s.purpose with
    | .call _ _ => (output, 1)
    | .create address => (ByteArray.empty, address.toWord)
  modify fun f => { f with gas := Saturating.add f.gas gasLeft, returnData := data }
  deliver s.purpose data
  FrameM.push word

/-- Goes on in the caller with the outcome of its callee.  After a failure the accounts and logs
are those before the call. -/
def resume (s : Suspended) (gasLeft : Nat) (outcome : Outcome) (w : World) :
    EStateM.Result Fault Active Unit :=
  let finish (w : World) (act : FrameM Unit) : EStateM.Result Fault Active Unit :=
    Action.onFrame act default ⟨s.frame, w⟩
  let fail (fault : Fault) :=
    finish (w.revert s.reversion s.logMark) (s.resumeAfterFault gasLeft fault)
  match outcome with
  | .failure fault => fail fault
  | .success output =>
    match s.purpose with
    | .call _ _ => finish w (s.resumeAfterSuccess gasLeft output)
    | .create address =>
      match w.deposit address output gasLeft with
      | .ok (gasLeft, w) => finish w (s.resumeAfterSuccess gasLeft output)
      | .error fault => fail fault

end Suspended

namespace Machine

/-- The machine without accounts. -/
def initial : Machine := ⟨default, ⟨.withGas 0, .empty⟩, [], none⟩

/-- The running frame. -/
def frame (m : Machine) : Frame := m.active.frame

/-- The world. -/
def world (m : Machine) : World := m.active.world

/-- The account records. -/
def accounts (m : Machine) : Accounts := m.active.world.accounts

/-- The number of suspended frames. -/
def depth (m : Machine) : Nat := m.suspended.length

/-- The machine with its running frame changed. -/
def mapFrame (m : Machine) (change : Frame → Frame) : Machine :=
  match m with
  | ⟨setting, ⟨frame, world⟩, suspended, result⟩ =>
    ⟨setting, ⟨change frame, world⟩, suspended, result⟩

/-- The machine with its world changed. -/
def mapWorld (m : Machine) (change : World → World) : Machine :=
  match m with
  | ⟨setting, ⟨frame, world⟩, suspended, result⟩ =>
    ⟨setting, ⟨frame, change world⟩, suspended, result⟩

/-- Hands the outcome of the running frame to the innermost caller that can take it.  If none is
left, it is the result. -/
def unwind (setting : Setting) : List Suspended → Active → Outcome → Machine
  | [], active, outcome => ⟨setting, active, [], some outcome⟩
  | s :: rest, active, outcome =>
    match s.resume active.frame.gas outcome active.world with
    | .ok _ active => ⟨setting, active, rest, none⟩
    | .error fault active => unwind setting rest active (.failure fault)

/-- Ends the running frame with an outcome. -/
def halt (m : Machine) (outcome : Outcome) : Machine :=
  unwind m.setting m.suspended m.active outcome

/-- Does what comes after an instruction. -/
def follow (setting : Setting) (suspended : List Suspended) (active : Active) : Next → Machine
  | .proceed => ⟨setting, active, suspended, none⟩
  | .enter callee purpose reversion =>
    let caller := ⟨active.frame, purpose, reversion, active.world.logs.size⟩
    ⟨setting, ⟨callee, active.world⟩, caller :: suspended, none⟩
  | .halt output => unwind setting suspended active (.success output)

/-- Runs one instruction.  A machine that has a result stays as it is. -/
def step (m : Machine) : Machine :=
  match m with
  | ⟨setting, active, suspended, none⟩ =>
    match Action.instruction ⟨setting, suspended.length⟩ active with
    | .ok next active => follow setting suspended active next
    | .error fault active => unwind setting suspended active (.failure fault)
  | ⟨setting, active, suspended, some outcome⟩ => ⟨setting, active, suspended, some outcome⟩

/-- Whether a step can be taken: the offset after the next instruction has to be a counter too. -/
def canStep (m : Machine) : Bool := m.result.isSome || m.frame.pc < Saturating.limit

/-- The gas of all frames together. -/
def totalGas (m : Machine) : Nat :=
  m.frame.gas + m.suspended.foldr (fun s gas => s.frame.gas + gas) 0

/-- More steps than the machine can run: every step that gives no result lowers the gas of all
frames and their number together. -/
def stepBound (m : Machine) : Nat := m.totalGas + m.depth + 1

/-- Runs up to `n` instructions, until there is a result. -/
def runFor : Nat → Machine → Machine
  | 0, m => m
  | n + 1, m => if m.result.isSome then m else runFor n m.step

/-- The result, or that all gas is used up where there is none yet. -/
def outcome (m : Machine) : Outcome := m.result.getD (.failure (.outOfGas 0 1))

/-- Runs until there is a result. -/
def run (m : Machine) : Outcome × Machine :=
  let m := runFor m.stepBound m
  (m.outcome, m)

/-- Runs up to `n` instructions, showing an observer the machine after each. -/
def observeFor {σ : Type} (observe : Machine → σ → σ) : Nat → Machine → σ → Machine × σ
  | 0, m, seen => (m, seen)
  | n + 1, m, seen =>
    if m.result.isSome then (m, seen)
    else
      let m := m.step
      observeFor observe n m (observe m seen)

/-- Runs until there is a result, showing an observer the machine after every instruction. -/
def runObserved {σ : Type} (observe : Machine → σ → σ) (m : Machine) (seen : σ) :
    Outcome × Machine × σ :=
  let (m, seen) := observeFor observe m.stepBound m seen
  (m.outcome, m, seen)

/-- Makes an account the one that the running frame executes. -/
def load (m : Machine) (a : Address) : Except Fault Machine :=
  match m.accounts[a]? with
  | none => .error (.missingAccount a)
  | some record =>
    .ok ((m.mapFrame fun f => { f.setCode record.code with account := a, codeAccount := a }).mapWorld
      (·.touch a))

/-- Forgets what lasts for a transaction: transient slots, and what has been touched. -/
def endTransaction (m : Machine) : Machine :=
  m.mapWorld fun w => { w with accounts := w.accounts.endTransaction, accessed := ∅ }

theorem step_of_result {m : Machine} (h : m.result.isSome) : m.step = m := by
  rcases m with ⟨setting, active, suspended, _ | outcome⟩
  · simp at h
  · rfl

theorem step_eq_self {m : Machine} {outcome : Outcome} (h : m.result = some outcome) :
    m.step = m :=
  step_of_result (by rw [h]; rfl)

theorem runFor_zero (m : Machine) : runFor 0 m = m := rfl

theorem runFor_of_result {m : Machine} (h : m.result.isSome) (n : Nat) : runFor n m = m := by
  cases n <;> simp [runFor, h]

theorem runFor_succ_of_running {m : Machine} (h : m.result = none) (n : Nat) :
    runFor (n + 1) m = runFor n m.step := by
  simp [runFor, h]

end Machine

end EvmHarness
