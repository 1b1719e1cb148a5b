import EvmHarness.CommandLine.Options
set_option autoImplicit false

/-!
# Reading a command line

The words are read from the first to the last, and the first fault ends the reading.  An option
whose value is the next word waits for it, and its value is looked at only when the following
option or word is taken; a word that cannot be taken at all is therefore told before a value that
is wrong.  After a word `--` every word is an operand.
-/

namespace EvmHarness.CommandLine

/-- How far the words of a scope have been read. -/
structure Reading where
  given : Given := {}
  /-- the last option, if its value is in a word of its own that has not been looked at; nothing
  in place of the value while the option waits for it -/
  pending : Option (Opt × Option String) := none
  deriving DecidableEq, Repr, Inhabited

namespace Reading

/-- Whether an option waits for its value. -/
def isWaiting (r : Reading) : Bool :=
  match r.pending with
  | some (_, none) => true
  | _ => false

/-- Takes the value of the last option. -/
def settle (r : Reading) : Except UsageFault Given :=
  match r.pending with
  | none => .ok r.given
  | some (_, none) => .error .missingValue
  | some (o, some text) => r.given.withValue o text

/-- Takes an option with the value that is part of its word. -/
def takeAttached (r : Reading) (o : Opt) (text : String) : Except UsageFault Reading := do
  return ⟨← (← r.settle).withValue o text, none⟩

/-- Takes an option without a value in its word. -/
def takeAlone (r : Reading) (o : Opt) : Except UsageFault Reading := do
  let given ← r.settle
  if o.takesValue then return ⟨given, some (o, none)⟩
  else return ⟨← given.withFlag o, none⟩

/-- Takes a word as the value of the option that waits for one, or else as an operand. -/
def takeOperand (scope : Scope) (word : String) (r : Reading) : Except UsageFault Reading := do
  if scope.operandLimit ≤ r.given.operands.length then
    throw (if scope = .program then .unknownCommand else .unknownArgument)
  let given ← r.settle
  return ⟨{ given with operands := given.operands ++ [word] }, none⟩

end Reading

/-- A word by its form. -/
inductive WordForm where
  /-- the word `--` -/
  | separator
  /-- what follows `--` -/
  | long (body : List Char)
  /-- what follows a single hyphen -/
  | letters (body : List Char)
  | plain
  deriving DecidableEq, Repr, Inhabited

/-- The form of a word.  A hyphen by itself is a plain word. -/
def WordForm.of (word : String) : WordForm :=
  match word.toList with
  | ['-', '-'] => separator
  | '-' :: '-' :: body => long body
  | ['-'] => plain
  | '-' :: body => letters body
  | _ => plain

/-- Reads a long option: a name, and a value after the first equals sign. -/
def readLong (scope : Scope) (body : List Char) (r : Reading) : Except UsageFault Reading :=
  let name := body.takeWhile (· ≠ '=')
  match (Opt.ofLong? (String.ofList name)).filter (·.standsIn scope), body.dropWhile (· ≠ '=') with
  | none, _ => .error .unknownArgument
  | some o, [] => r.takeAlone o
  | some o, _ :: value =>
    if o.takesValue then r.takeAttached o (String.ofList value) else .error .surplusValue

/-- Reads options of one letter each.  What follows the letter of an option with a value is the
value, with or without an equals sign before it. -/
def readLetters (scope : Scope) : List Char → Reading → Except UsageFault Reading
  | [], r => .ok r
  | c :: rest, r =>
    match (Opt.ofLetter? c).filter (·.standsIn scope), rest with
    | none, _ => .error .unknownArgument
    | some o, [] => r.takeAlone o
    | some o, rest =>
      if o.takesValue then
        let value := match rest with
          | '=' :: value => value
          | value => value
        r.takeAttached o (String.ofList value)
      else do readLetters scope rest (← r.takeAlone o)

/-- Whether a word is a command where one may stand. -/
def isCommand (word : String) : Bool := word = "help" || (Scope.ofCommand? word).isSome

/-- What a request for help with a command comes to. -/
def helpFault : List String → UsageFault
  | [] => .help
  | [name] => if isCommand name then .help else .unknownCommand
  | _ => .unknownCommand

/-- Reads the words after `--`, none of which is a command. -/
def readOperands (scope : Scope) : List String → Reading → Except UsageFault Reading
  | [], r => .ok r
  | word :: rest, r =>
    if scope = .program ∧ isCommand word then .error .unknownArgument
    else do readOperands scope rest (← r.takeOperand scope word)

/-- Reads the words of a scope, up to a command with the words that follow it. -/
def readWords (scope : Scope) :
    List String → Reading → Except UsageFault (Reading × Option (Scope × List String))
  | [], r => .ok (r, none)
  | word :: rest, r =>
    if scope = .program ∧ ¬r.isWaiting ∧ isCommand word then
      match Scope.ofCommand? word with
      | some command => .ok (r, some (command, rest))
      | none => .error (helpFault rest)
    else match WordForm.of word with
      | .separator => do return (← readOperands scope rest r, none)
      | .long body => do readWords scope rest (← readLong scope body r)
      | .letters body => do readWords scope rest (← readLetters scope body r)
      | .plain =>
        match r.pending with
        | some (o, none) => readWords scope rest { r with pending := some (o, some word) }
        | _ => do readWords scope rest (← r.takeOperand scope word)

/-- The command that the options of its scope make up. -/
def commandOf (scope : Scope) (given : Given) : Except UsageFault Command :=
  match scope with
  | .config =>
    .ok (.config ⟨given.operands.getD 0 "", given.operands.getD 1 ""⟩)
  | _ =>
    match given.code with
    | none => .error .missingArgument
    | some code =>
      let request : ExecRequest := { code }
      .ok (.exec { request with
        calldata := given.calldata.getD request.calldata
        create := given.create
        coverage := given.coverage
        gas := given.gas
        sender := given.sender
        target := given.target.getD request.target })

/-- Reads a command line. -/
def read (words : List String) : Except UsageFault CommandLine := do
  let (outer, found) ← readWords .program words {}
  match found with
  | none => throw (if (← outer.settle) = {} then .nothingGiven else .missingCommand)
  | some (scope, rest) =>
    let (inner, _) ← readWords scope rest {}
    let inner ← inner.settle
    let command ← commandOf scope inner
    let outer ← outer.settle
    return ⟨command, (inner.logs.orElse outer.logs).complete⟩

end EvmHarness.CommandLine
