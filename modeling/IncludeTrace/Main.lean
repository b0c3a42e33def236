import IncludeTrace.CommandLine.Program
import IncludeTrace.World.Description

/-!
# The command line

The program runs in a described world: it reads the description from standard input, takes its
arguments from the command line, and prints what the program prints there.
-/

open IncludeTrace

/-- Reads the description of a world from standard input and runs the program in it. -/
def main (arguments : List String) : IO UInt32 := do
  let description ← (← IO.getStdin).readToEnd
  let world := match Json.read description with
    | .ok v => World.ofDescription v
    | .error _ => World.ofDescription .null
  let finish := CommandLine.run world (arguments.map String.toList)
  (← IO.getStdout).putStr (String.ofList finish.standardOutput)
  (← IO.getStderr).putStr (String.ofList finish.standardError)
  return UInt32.ofNat finish.exitCode
