import GrammarText.CommandLine.Run

/-!
# The program

Reads its input, and writes what the run comes to.
-/

namespace GrammarText.CommandLine

/-- Why the system refuses to read a file. A file that is not what it should be has a name in the
error if it cannot be opened, for then a part of its path is wrong. -/
def ReadFault.ofError : IO.Error → ReadFault
  | .noFileOrDirectory .. => .missing
  | .inappropriateType (some _) .. => .notDirectory
  | .inappropriateType .. => .directory
  | e => .other (toString e)

/-- All bytes of a stream. -/
partial def readStream (stream : IO.FS.Stream) (read : ByteArray) : IO ByteArray := do
  let block ← stream.read 65536
  if block.isEmpty then return read else readStream stream (read ++ block)

/-- Reads the input. -/
def Source.read : Source → IO (Except ReadFault ByteArray)
  | standardInput => do return .ok (← readStream (← IO.getStdin) .empty)
  | file name =>
    try
      return .ok (← IO.FS.readBinFile name)
    catch e =>
      return .error (.ofError e)

end GrammarText.CommandLine

open GrammarText.CommandLine in
/-- Runs the program with the given arguments. -/
def main (arguments : List String) : IO UInt32 := do
  let outcome ←
    match Options.ofArguments arguments with
    | .ok options => options.run <$> options.source.read
    | .error error => pure (.misuse error)
  (← IO.getStdout).putStr outcome.output
  (← IO.getStderr).putStr outcome.complaint
  return outcome.code.toUInt32
