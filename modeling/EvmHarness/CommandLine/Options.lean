import EvmHarness.CommandLine
set_option autoImplicit false

/-!
# Options

The options of the program and of its commands, how they are spelt and where they may stand.
What is given is collected in `Given`; an option takes one value, and may be given once.
-/

namespace EvmHarness

/-- Why a command line asks for nothing that the program does. -/
inductive UsageFault where
  /-- help is asked for -/
  | help
  /-- the version is asked for -/
  | version
  /-- there is nothing on the command line -/
  | nothingGiven
  /-- there are options but no command -/
  | missingCommand
  /-- there is no such command -/
  | unknownCommand
  /-- there is no such option here, or a word too many -/
  | unknownArgument
  /-- an option is missing that the command needs -/
  | missingArgument
  /-- an option has no value -/
  | missingValue
  /-- a value is none of the words that are allowed -/
  | unknownWord
  /-- a value is no number -/
  | badNumber
  /-- an option has a value and takes none -/
  | surplusValue
  /-- an option is given twice -/
  | repeated
  deriving DecidableEq, Repr, Inhabited

/-- Where options stand: before the command, or after it. -/
inductive Scope where
  | program
  | exec
  | config
  deriving DecidableEq, Repr, Inhabited

namespace Scope

/-- The scope of a command's options. -/
def ofCommand? : String → Option Scope
  | "exec" => some exec
  | "config" => some config
  | _ => none

/-- The number of words that may stand in a scope beside its options. -/
def operandLimit : Scope → Nat
  | config => 2
  | _ => 0

end Scope

/-- An option. -/
inductive Opt where
  | code
  | calldata
  | create
  | coverage
  | gas
  | sender
  | target
  | stdoutFormat
  | stdoutFilter
  | fileDirectory
  | fileFormat
  | fileFilter
  | fileMaxSize
  | fileMaxFiles
  | color
  | verbosity
  | quiet
  | help
  | version
  deriving DecidableEq, Repr, Inhabited

namespace Opt

/-- The option of a long name. -/
def ofLong? : String → Option Opt
  | "code" => some code
  | "calldata" => some calldata
  | "create" => some create
  | "coverage" => some coverage
  | "gas" => some gas
  | "sender" => some sender
  | "target" => some target
  | "log.stdout.format" => some stdoutFormat
  | "log.stdout.filter" => some stdoutFilter
  | "log.file.directory" => some fileDirectory
  | "log.file.format" => some fileFormat
  | "log.file.filter" => some fileFilter
  | "log.file.max-size" => some fileMaxSize
  | "log.file.max-files" => some fileMaxFiles
  | "color" => some color
  | "verbosity" => some verbosity
  | "quiet" => some quiet
  | "silent" => some quiet
  | "help" => some help
  | "version" => some version
  | _ => none

/-- The option of a letter. -/
def ofLetter? : Char → Option Opt
  | 'c' => some code
  | 'd' => some calldata
  | 't' => some target
  | 'v' => some verbosity
  | 'q' => some quiet
  | 'h' => some help
  | 'V' => some version
  | _ => none

/-- Whether the option may stand in a scope.  The options for logs and for help may stand in
every one. -/
def standsIn (o : Opt) (scope : Scope) : Bool :=
  match o with
  | code | calldata | create | coverage | gas | sender | target => scope = .exec
  | version => scope = .program
  | _ => true

/-- Whether the option has a value. -/
def takesValue : Opt → Bool
  | create | coverage | verbosity | quiet | help | version => false
  | _ => true

end Opt

/-- The number of a text of decimal digits, after a plus sign or not, below 2⁶⁴. -/
def readNumber (text : String) : Except UsageFault UInt64 :=
  let digits := match text.toList with
    | '+' :: rest => rest
    | cs => cs
  if digits ≠ [] ∧ digits.all Char.isDigit then
    let n := digits.foldl (fun n c => n * 10 + (c.toNat - 48)) 0
    if n < UInt64.size then .ok (UInt64.ofNat n) else .error .badNumber
  else .error .badNumber

/-- One of the allowed words. -/
def readWord {α : Type} (ofWord? : String → Option α) (text : String) : Except UsageFault α :=
  match ofWord? text with
  | some a => .ok a
  | none => .error .unknownWord

/-- A text that is not empty. -/
def readNonempty (text : String) : Except UsageFault String :=
  if text = "" then .error .missingValue else .ok text

/-- The options for logs that are given in one scope. -/
structure GivenLogs where
  stdoutFormat : Option LogFormat := none
  stdoutFilter : Option String := none
  fileDirectory : Option String := none
  fileFormat : Option LogFormat := none
  fileFilter : Option String := none
  fileMaxSize : Option UInt64 := none
  fileMaxFiles : Option UInt64 := none
  color : Option ColorMode := none
  /-- how often more is asked for -/
  verbosity : Nat := 0
  quiet : Bool := false
  deriving DecidableEq, Repr, Inhabited

namespace GivenLogs

/-- What is given in an inner scope, and what an outer one adds to it. -/
def orElse (inner outer : GivenLogs) : GivenLogs :=
  { stdoutFormat := inner.stdoutFormat <|> outer.stdoutFormat
    stdoutFilter := inner.stdoutFilter <|> outer.stdoutFilter
    fileDirectory := inner.fileDirectory <|> outer.fileDirectory
    fileFormat := inner.fileFormat <|> outer.fileFormat
    fileFilter := inner.fileFilter <|> outer.fileFilter
    fileMaxSize := inner.fileMaxSize <|> outer.fileMaxSize
    fileMaxFiles := inner.fileMaxFiles <|> outer.fileMaxFiles
    color := inner.color <|> outer.color
    verbosity := if inner.verbosity = 0 then outer.verbosity else inner.verbosity
    quiet := inner.quiet || outer.quiet }

/-- The options for logs, where those not given have their defaults. -/
def complete (g : GivenLogs) : LogOptions :=
  let default : LogOptions := {}
  { stdoutFormat := g.stdoutFormat.getD default.stdoutFormat
    stdoutFilter := g.stdoutFilter.getD default.stdoutFilter
    fileDirectory := g.fileDirectory <|> default.fileDirectory
    fileFormat := g.fileFormat.getD default.fileFormat
    fileFilter := g.fileFilter.getD default.fileFilter
    fileMaxSize := g.fileMaxSize.getD default.fileMaxSize
    fileMaxFiles := g.fileMaxFiles.getD default.fileMaxFiles
    color := g.color.getD default.color
    level := if g.quiet then .off else .ofVerbosity g.verbosity }

theorem complete_empty : complete {} = {} := rfl

end GivenLogs

/-- What is given in one scope. -/
structure Given where
  code : Option String := none
  calldata : Option String := none
  create : Bool := false
  coverage : Bool := false
  gas : Option UInt64 := none
  sender : Option String := none
  target : Option String := none
  logs : GivenLogs := {}
  /-- the words beside the options, in their order -/
  operands : List String := []
  deriving DecidableEq, Repr, Inhabited

namespace Given

/-- The value of an option that has none yet. -/
def once {α : Type} (field : Option α) (value : Except UsageFault α) :
    Except UsageFault (Option α) :=
  if field.isSome then .error .repeated else value.map some

/-- Sets a flag that is not set yet. -/
def raise (field : Bool) : Except UsageFault Bool := if field then .error .repeated else .ok true

/-- What is given together with an option and its value. -/
def withValue (g : Given) (o : Opt) (text : String) : Except UsageFault Given :=
  let withLogs (l : Except UsageFault GivenLogs) : Except UsageFault Given :=
    l.map fun l => { g with logs := l }
  let l := g.logs
  match o with
  | .code => (once g.code (.ok text)).map fun v => { g with code := v }
  | .calldata => (once g.calldata (.ok text)).map fun v => { g with calldata := v }
  | .gas => (once g.gas (readNumber text)).map fun v => { g with gas := v }
  | .sender => (once g.sender (.ok text)).map fun v => { g with sender := v }
  | .target => (once g.target (.ok text)).map fun v => { g with target := v }
  | .stdoutFormat => withLogs <|
    (once l.stdoutFormat (readWord LogFormat.ofWord? text)).map fun v =>
      { l with stdoutFormat := v }
  | .stdoutFilter => withLogs <|
    (once l.stdoutFilter (.ok text)).map fun v => { l with stdoutFilter := v }
  | .fileDirectory => withLogs <|
    (once l.fileDirectory (readNonempty text)).map fun v => { l with fileDirectory := v }
  | .fileFormat => withLogs <|
    (once l.fileFormat (readWord LogFormat.ofWord? text)).map fun v => { l with fileFormat := v }
  | .fileFilter => withLogs <|
    (once l.fileFilter (.ok text)).map fun v => { l with fileFilter := v }
  | .fileMaxSize => withLogs <|
    (once l.fileMaxSize (readNumber text)).map fun v => { l with fileMaxSize := v }
  | .fileMaxFiles => withLogs <|
    (once l.fileMaxFiles (readNumber text)).map fun v => { l with fileMaxFiles := v }
  | .color => withLogs <|
    (once l.color (readWord ColorMode.ofName? text)).map fun v => { l with color := v }
  | _ => .error .surplusValue

/-- What is given together with an option that has no value. -/
def withFlag (g : Given) : Opt → Except UsageFault Given
  | .create => (raise g.create).map fun v => { g with create := v }
  | .coverage => (raise g.coverage).map fun v => { g with coverage := v }
  | .quiet => (raise g.logs.quiet).map fun v => { g with logs := { g.logs with quiet := v } }
  | .verbosity => .ok { g with logs := { g.logs with verbosity := g.logs.verbosity + 1 } }
  | .help => .error .help
  | .version => .error .version
  | _ => .error .missingValue

end Given

end EvmHarness
