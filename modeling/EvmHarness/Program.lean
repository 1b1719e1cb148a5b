import EvmHarness.CommandLine.Read
import EvmHarness.Report
import EvmHarness.Settings.File
set_option autoImplicit false

/-!
# The program

One run of the program: it loads the settings, does what the command line asks for, and leaves
the lines it prints and the files as they are afterwards.  The settings are loaded first whatever
is asked for, so that their file is there after every run that gets past the command line.
-/

namespace EvmHarness

/-- Why a run fails. -/
inductive ProgramFault where
  /-- the settings cannot be loaded -/
  | loading (cause : SettingsFault)
  /-- a setting cannot be changed -/
  | configuring (cause : SettingsFault)
  /-- the execution has no report -/
  | executing (cause : ExecFault)
  deriving DecidableEq, Inhabited

namespace ProgramFault

/-- The text of a fault. -/
def message : ProgramFault → String
  | loading cause => "failed to load configuration: " ++ cause.message
  | configuring cause => "failed to configure: " ++ cause.message
  | executing cause => cause.message

end ProgramFault

/-- What a run leaves behind. -/
structure Run where
  /-- the report of an execution, if one was asked for -/
  result : Except ProgramFault (Option Report)
  /-- the lines printed -/
  output : List String
  files : FileTree

namespace Run

/-- A run that fails. -/
def failed (fault : ProgramFault) (files : FileTree) : Run := ⟨.error fault, [], files⟩

end Run

namespace SettingsRequest

/-- Shows the settings, or changes one.  A key without a value asks for nothing. -/
def run (r : SettingsRequest) (path : Path) (s : Settings) (files : FileTree) : Run :=
  if r.key = "" then ⟨.ok none, s.describe, files⟩
  else if r.value = "" then ⟨.ok none, [], files⟩
  else
    match s.update r.key r.value with
    | .error fault => .failed (.configuring fault) files
    | .ok s =>
      match s.save path files with
      | .error fault => .failed (.configuring fault) files
      | .ok files => ⟨.ok none, [], files⟩

end SettingsRequest

namespace ExecRequest

/-- Executes code and prints the report. -/
def run (r : ExecRequest) (s : Settings) (files : FileTree) : Run :=
  match r.report s with
  | .ok report => ⟨.ok (some report), report.lines, files⟩
  | .error fault => .failed (.executing fault) files

end ExecRequest

/-- Runs the program with settings in the file at a path. -/
def CommandLine.run (line : CommandLine) (path : Path) (files : FileTree) : Run :=
  match Settings.load path files with
  | .error fault => .failed (.loading fault) files
  | .ok (s, files) =>
    match line.command with
    | .exec request => request.run s files
    | .config request => request.run path s files

end EvmHarness
