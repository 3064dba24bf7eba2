import LineageSearch.Tool.Run

/-!
# The command line

Reads files, the input and the environment for a run of the tool, and prints what the run
leaves.
-/

namespace LineageSearch

/-- The bytes of a file, if it can be read. -/
def readBytes? (path : Text) : IO (Option (List UInt8)) := do
  try
    return some (← IO.FS.readBinFile (String.ofList path)).toList
  catch _ => return none

/-- The bytes of a stream up to its end. -/
partial def readToEnd (stream : IO.FS.Stream) (read : ByteArray) : IO ByteArray := do
  let more ← stream.read 65536
  if more.isEmpty then return read else readToEnd stream (read ++ more)

/-- The environment variables of the process with their values. -/
def readVariables : IO (List (Text × Text)) := do
  let bytes ← readBytes? "/proc/self/environ".toList
  return (cut (· == 0) (bytes.getD [])).filterMap fun entry =>
    (Text.ofUtf8? entry).bind fun text =>
      let (name, value) := Arguments.splitValue text
      value.map fun value => (name, value)

end LineageSearch

open LineageSearch in
def main (arguments : List String) : IO UInt32 := do
  let host : Host IO :=
    { fileBytes := readBytes?
      inputBytes := return (← readToEnd (← IO.getStdin) .empty).toList }
  let outcome ← Tool.run host (← readVariables) (arguments.map String.toList)
  IO.print (String.ofList outcome.output)
  IO.eprint (String.ofList outcome.errors)
  return UInt32.ofNat outcome.code
