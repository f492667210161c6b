import ImportSweep.Command.Run
import ImportSweep.Files.Launch

/-!
# The program

Reads the files below the working directory, runs the command, and writes the files that changed.
The parsing program is reached through two channels: requests are lines appended to the file of
its name, and each answer is a line of the standard input.
-/

namespace ImportSweep.Program

open ImportSweep.Files ImportSweep.Parser ImportSweep.Command

/-- An entry of a directory as it is on disk. Links are left out. -/
partial def load (entry : IO.FS.DirEntry) : IO (Option (String × Entry)) := do
  let metadata ← entry.path.symlinkMetadata
  match metadata.type with
  | .file =>
    let bytes ← IO.FS.readBinFile entry.path
    return some (entry.fileName, .file (.ofBytes bytes.toList))
  | .dir =>
    let entries ← (← entry.path.readDir).toList.filterMapM load
    return some (entry.fileName, .directory entries)
  | .symlink | .other => return none

/-- The files below the working directory. -/
def loadAll : IO Entry := do
  let top ← IO.currentDir
  return .directory (← (← top.readDir).toList.filterMapM load)

/-- Asks the parsing program. -/
def ask (files : Entry) (call : Invocation) : IO (Except FileError Completion) := do
  try
    let channel ← IO.FS.Handle.mk call.program .append
    channel.putStrLn call.input
    channel.flush
    let answer ← (← IO.getStdin).getLine
    return .ok ⟨0, answer.toUTF8.toList, []⟩
  catch _ => return .error (files.launchError call.program)

/-- Writes a file if its text changed. -/
def store (before after : Entry) (path : String) : IO Unit :=
  match before.read path, after.read path with
  | .ok old, .ok new => if old = new then pure () else IO.FS.writeFile path new
  | _, _ => pure ()

/-- The stylesheets that a command may write. -/
def targets (files : Entry) : Command → List String
  | .prune o => (listFiles files o).toOption.getD []
  | _ => []

/-- Runs a command. -/
def execute (line : CommandLine) : IO Finish := do
  let files ← loadAll
  let answers ← (invocations line files).mapM fun call => return (call, ← ask files call)
  let service : Service := fun call => (answers.lookup call).getD (.error .notFound)
  let (finish, files') := run .full (serviceParser service line.program line.lessModule) files
    line.command
  (targets files line.command).forM (store files files')
  return finish

end ImportSweep.Program

open ImportSweep.Command in
/-- Runs the program on its arguments. -/
def main (arguments : List String) : IO UInt32 := do
  let env := Environment.mk (← IO.getEnv "LESSPRUNE_NODE") (← IO.getEnv "LESSPRUNE_LESS_MODULE")
  let finish ← match parseArguments env arguments with
    | .ok line => ImportSweep.Program.execute line
    | .error halt => pure halt.finish
  IO.print finish.stdout
  IO.eprint finish.stderr
  return UInt32.ofNat finish.code
