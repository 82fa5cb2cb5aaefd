import MailServer.Replay

/-!
# The command line

Reads a batch from standard input, answers it, and exits with the code of the answer.
-/

namespace MailServer.CommandLine

/-- The variable of each field, as far as there is one. -/
def readVariables : IO Config.Environment :=
  Config.Field.all.filterMapM fun f => do
    let value ← IO.getEnv f.variableName
    pure (value.map (f.variableName, ·))

/-- The environment that the system shows for this process; where it shows none, the variables of
the fields. -/
def readEnvironment : IO Config.Environment := do
  try pure (Config.Environment.ofBlock (← IO.FS.readBinFile "/proc/self/environ").toList)
  catch _ => readVariables

/-- Everything that is left to read, behind what has been read. -/
partial def readInput (stream : IO.FS.Stream) (read : ByteArray) : IO ByteArray := do
  let chunk ← stream.read 65536
  if chunk.isEmpty then pure read else readInput stream (read ++ chunk)

/-- A run on standard input and output. -/
def run (arguments : List String) : IO UInt32 := do
  let environment ← readEnvironment
  let input ← readInput (← IO.getStdin) .empty
  let outcome := Replay.run arguments environment input.toList
  IO.print outcome.output
  (← IO.getStdout).flush
  pure outcome.exitCode

end MailServer.CommandLine

def main (arguments : List String) : IO UInt32 := MailServer.CommandLine.run arguments
