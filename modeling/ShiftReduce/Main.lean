/-
This file runs the command line.
-/

import ShiftReduce.CommandLine.Answer

namespace ShiftReduce.CommandLine

def readFile (path : String) : IO (Except ReadError ByteArray) := do
  try
    return .ok (← IO.FS.readBinFile path)
  catch
    | .inappropriateType .. => return .error .isDirectory
    | _ => return .error .notFound

/-- Only the files that the command names are read. -/
def execute (arguments : List String) : IO UInt32 := do
  let paths := ((Command.ofArguments arguments).map Command.paths).getD []
  let contents ← paths.mapM fun path => do return (path, ← readFile path)
  let answer :=
    answerArguments (fun path => (contents.lookup path).getD (.error .notFound)) arguments
  IO.print answer.output
  IO.eprint answer.errors
  return answer.exitCode.toUInt32

end ShiftReduce.CommandLine

def main (arguments : List String) : IO UInt32 :=
  ShiftReduce.CommandLine.execute arguments
