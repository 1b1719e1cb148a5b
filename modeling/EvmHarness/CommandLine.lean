set_option autoImplicit false

/-!
# The command line

What a user can ask for: to execute some code, or to see and change the settings, and in both
cases how the program logs.  Every option that is not given has the value it has in
`ExecRequest` and `LogOptions`.
-/

namespace EvmHarness

/-- How log lines are written. -/
inductive LogFormat where
  | json
  /-- lines of keys and values -/
  | keyValue
  | terminal
  deriving DecidableEq, Repr, Inhabited

namespace LogFormat

/-- The format that a word of the command line chooses. -/
def ofWord? : String → Option LogFormat
  | "json" => some json
  | "log-fmt" => some keyValue
  | "terminal" => some terminal
  | _ => none

/-- The name of a format. -/
def name : LogFormat → String
  | json => "json"
  | keyValue => "logfmt"
  | terminal => "terminal"

end LogFormat

/-- When the output has colours. -/
inductive ColorMode where
  | always
  | auto
  | never
  deriving DecidableEq, Repr, Inhabited

namespace ColorMode

/-- The name of a mode. -/
def name : ColorMode → String
  | always => "always"
  | auto => "auto"
  | never => "never"

/-- The mode of a name. -/
def ofName? : String → Option ColorMode
  | "always" => some always
  | "auto" => some auto
  | "never" => some never
  | _ => none

/-- The mode of a name, or the text that says there is none. -/
def parse (text : String) : Except String ColorMode :=
  match ofName? text with
  | some mode => .ok mode
  | none => .error ("Invalid color mode: " ++ text)

theorem parse_name (mode : ColorMode) : parse mode.name = .ok mode := by
  cases mode <;> rfl

end ColorMode

/-- The least serious kind of event that is logged. -/
inductive LogLevel where
  | off
  | warn
  | info
  | debug
  | trace
  deriving DecidableEq, Repr, Inhabited

namespace LogLevel

/-- The name of a level. -/
def name : LogLevel → String
  | off => "off"
  | warn => "warn"
  | info => "info"
  | debug => "debug"
  | trace => "trace"

/-- The level for a number of requests to say more. -/
def ofVerbosity : Nat → LogLevel
  | 0 => warn
  | 1 => warn
  | 2 => info
  | 3 => debug
  | _ => trace

end LogLevel

/-- How the program logs. -/
structure LogOptions where
  stdoutFormat : LogFormat := .terminal
  stdoutFilter : String := ""
  /-- where log files go, if there are any -/
  fileDirectory : Option String := none
  fileFormat : LogFormat := .terminal
  fileFilter : String := "debug"
  /-- in millions of bytes -/
  fileMaxSize : UInt64 := 200
  fileMaxFiles : UInt64 := 5
  color : ColorMode := .always
  level : LogLevel := .warn
  deriving DecidableEq, Repr, Inhabited

/-- A request to execute code. -/
structure ExecRequest where
  /-- the code, in hexadecimal -/
  code : String
  /-- the input of the call, in hexadecimal -/
  calldata : String := ""
  /-- whether the code is run to make the code that is called -/
  create : Bool := false
  /-- whether coverage is recorded -/
  coverage : Bool := false
  /-- the gas, if not that of the settings -/
  gas : Option UInt64 := none
  /-- the sender, if not that of the settings -/
  sender : Option String := none
  /-- the address to execute at -/
  target : String := "0x00a329c0648769a73afac7f9381e08fb43dbea72"
  deriving DecidableEq, Repr

/-- A request to see the settings, or to change one of them. -/
structure SettingsRequest where
  key : String := ""
  value : String := ""
  deriving DecidableEq, Repr, Inhabited

/-- What the program is asked to do. -/
inductive Command where
  | exec (request : ExecRequest)
  | config (request : SettingsRequest)
  deriving DecidableEq, Repr

/-- A command line. -/
structure CommandLine where
  command : Command
  logs : LogOptions
  deriving DecidableEq, Repr

end EvmHarness
