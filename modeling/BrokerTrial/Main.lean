import BrokerTrial.Program

/-!
The program on the command line: it reads the configuration file and the arguments, writes the log
to the error stream, and leaves with the exit code. The client is the one that answers every request
at once.
-/

namespace BrokerTrial

/-- The code of the system for reading a directory as a file. -/
def directoryCode : UInt32 := 21

/-- What is found at a path of the file system. -/
def found (path : String) : IO Source.Found := do
  try
    return .file (← IO.FS.readBinFile path).toList
  catch
    | .noFileOrDirectory .. => return .nothing
    | .inappropriateType _ code _ => return if code = directoryCode then .directory else .nothing
    | e => throw e

def writeLog (entries : List Log.Entry) : IO Unit := do
  for entry in entries do
    IO.eprintln s!"[{entry.level.label}] {entry.text}"

def exitCode : Program.Ending → IO UInt32
  | .exited code => return code.toUInt32
  | .escaped e => do
    IO.eprintln e.message
    return 1
  | .waiting => return 1

end BrokerTrial

open BrokerTrial

def main (args : List String) : IO UInt32 := do
  match CommandLine.Arguments.ofWords args with
  | .error stop =>
    IO.print stop.exit.output
    IO.eprint stop.exit.errors
    return stop.exit.code.toUInt32
  | .ok arguments =>
    let file ← found (Program.configPath arguments)
    let report := Program.run .usual arguments (fun _ => file) {} []
    writeLog report.entries
    exitCode report.ending
