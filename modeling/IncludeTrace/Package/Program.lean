import IncludeTrace.CommandLine.Options
import IncludeTrace.Package.Requirement

/-!
# The program that checks packages

`Requirement.run` reads a command line with a single option and reports on all packages; without the
option it prints help.
-/

namespace IncludeTrace.Requirement

open CommandLine

/-- What the options of the program stand for. -/
inductive Choice
  | help
  | checkAll
  deriving DecidableEq

/-- The grammar of the command line. -/
def grammar : Grammar Choice :=
  ⟨[⟨.help, ["-h", "--help"], false⟩, ⟨.checkAll, ["--check-all"], false⟩], false⟩

/-- The name of the program. -/
def program : Text := "package_verification.py"

/-- The line that says how the program is called. -/
def usage : Text := "usage: package_verification.py [-h] [--check-all]\n"

/-- The help on the program. -/
def help : Text :=
  usage ++ "\n" ++
  "Verify buildCheckShowIncludes package dependencies\n" ++
  "\n" ++
  "options:\n" ++
  "  -h, --help   show this help message and exit\n" ++
  "  --check-all  Check all known runtime packages\n"

/-- How the program ended: with a code of its own, or by way of the command line. -/
inductive Finish
  | returned (code : Nat) (emissions : List Emission)
  | exited (code : Nat) (emissions : List Emission)

/-- Whether help is asked for. -/
def asksForHelp (events : List (Event Choice)) : Bool :=
  events.any fun
    | .flag .help => true
    | _ => false

/-- **Runs** the program. Help comes before a fault that follows it on the command line. -/
def run (p : Palette) (requirements installed : Table Text) (words : List Text) :
    Except Fault Finish :=
  let scan := grammar.scan words
  if asksForHelp scan.events then .ok (.exited 0 [.out help])
  else match scan.fault with
    | some f =>
      .ok (.exited 2 [.err (usage ++ program ++ ": error: " ++ f.message ++ ['\n'])])
    | none =>
      if scan.events.isEmpty then .ok (.returned 0 [.out help])
      else do
        let (lines, good) ← report p requirements installed
        return .returned (if good then 0 else 1) lines

end IncludeTrace.Requirement
