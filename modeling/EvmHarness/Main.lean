import EvmHarness.Program
set_option autoImplicit false

/-!
# The command

The outer layer of the program: it brings the settings file into a tree of files, runs the
program on it, prints the lines and puts the file back where the run has changed it.
-/

namespace EvmHarness

/-- The settings file under the home directory of the user. -/
def settingsPath : Path := [".ferret", "config.toml"]

/-- What is printed when a command line asks for nothing that the program does. -/
def usage : String :=
  "commands:\n" ++
  "  exec --code HEX [--calldata HEX] [--create] [--coverage] [--gas N] [--sender A]\n" ++
  "       [--target A]    execute bytecode in a single call transaction\n" ++
  "  config [KEY] [VALUE]  display and edit the current configuration\n"

/-- The files under a directory that the program may read: at most the settings file. -/
def readFiles (home : String) : IO FileTree := do
  try
    let text ← IO.FS.readFile ("/".intercalate (home :: settingsPath))
    return (FileTree.empty.write? settingsPath text).getD FileTree.empty
  catch _ => return FileTree.empty

/-- Puts the settings file under a directory. -/
def writeFiles (home : String) (files : FileTree) : IO Unit := do
  if let some text := files.read? settingsPath then
    IO.FS.createDirAll ("/".intercalate (home :: settingsPath.dropLast))
    IO.FS.writeFile ("/".intercalate (home :: settingsPath)) text

/-- Runs the program for a user; the result is the exit code. -/
def runFor (home : String) (line : CommandLine) : IO UInt32 := do
  let files ← readFiles home
  let run := line.run settingsPath files
  if run.files.read? settingsPath ≠ files.read? settingsPath then
    writeFiles home run.files
  for text in run.output do
    IO.println text
  match run.result with
  | .ok _ => return 0
  | .error fault =>
    IO.eprintln ("Error: " ++ fault.message)
    return 1

end EvmHarness

/-- Runs the program on the words of the command line. -/
def main (words : List String) : IO UInt32 := do
  match EvmHarness.CommandLine.read words with
  | .ok line => EvmHarness.runFor ((← IO.getEnv "HOME").getD "") line
  | .error .help =>
    IO.print EvmHarness.usage
    return 0
  | .error .version =>
    IO.println "0.1.0"
    return 0
  | .error _ =>
    IO.eprint EvmHarness.usage
    return 2
