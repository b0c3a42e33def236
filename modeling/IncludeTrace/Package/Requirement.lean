import IncludeTrace.Console
import IncludeTrace.Package.Version
import IncludeTrace.Table
import IncludeTrace.Text.Quoted

/-!
# Required packages

The program needs some packages in a minimum version and can make use of others. `Requirement.check`
compares one package with its minimum; asked strictly, it fails if the package is missing or too old.
-/

namespace IncludeTrace.Requirement

/-- The packages with their minimum versions. -/
def standard : Table Text :=
  [("networkx", "2.8.8"), ("packaging", "24.0"), ("colorama", "0.4.6"), ("pydot", "1.4.2")]

/-- The packages that can be done without. -/
def optional : List Text := ["colorama", "pydot"]

/-- Why a package cannot be checked, or does not pass. -/
inductive Fault
  | noMinimum (name : Text)
  | notInstalled (name minimum : Text)
  | tooOld (name version minimum : Text)
  | notVersion (t : Text)
  | longNumeral (digits : Nat)
  deriving DecidableEq

/-- The fault in words. -/
def Fault.message : Fault → Text
  | .noMinimum name => "No version requirement specified for " ++ name
  | .notInstalled name minimum =>
    name ++ " is not installed. Install with: pip install '" ++ name ++ ">=" ++ minimum ++ "'"
  | .tooOld name version minimum =>
    name ++ " " ++ version ++ " is too old. Version >=" ++ minimum ++
      " is required. Upgrade with: pip install --upgrade '" ++ name ++ ">=" ++ minimum ++ "'"
  | .notVersion t => "Invalid version: " ++ t.quoted
  | .longNumeral digits => Numeral.tooLongMessage digits

/-- What was found out about a package. -/
structure Status where
  installed : Bool
  meets : Bool
  version : Option Text
  deriving DecidableEq

/-- The version that a text writes, or the fault that it writes none, or one with a number that is too
long. -/
def readVersion (t : Text) : Except Fault Version :=
  match Spelling.ofText? t with
  | none => .error (.notVersion t)
  | some s =>
    match s.numerals.find? Numeral.isTooLong with
    | some digits => .error (.longNumeral digits.length)
    | none => .ok s.version

/-- Compares an installed version with a minimum. -/
def compareWith (minimum version : Text) : Except Fault Bool := do
  let v ← readVersion version
  return v.atLeast (← readVersion minimum)

/-- **Checks** a package against a minimum, by default the required one. -/
def check (requirements installed : Table Text) (name : Text) (minimum : Option Text)
    (strict : Bool) : Except Fault Status :=
  match minimum <|> requirements.get? name with
  | none => .error (.noMinimum name)
  | some minimum =>
    match installed.get? name with
    | none => if strict then .error (.notInstalled name minimum) else .ok ⟨false, false, none⟩
    | some version => do
      let meets ← compareWith minimum version
      if strict && !meets then throw (.tooOld name version minimum)
      return ⟨true, meets, some version⟩

/-- What is put out if a package that is needed for something does not pass; nothing if it does. -/
def complaint (p : Palette) (requirements installed : Table Text) (name context : Text) :
    Option Emission :=
  match check requirements installed name none true with
  | .ok _ => none
  | .error f =>
    some (.err (p.errorLine true (name ++ " is required for " ++ context ++ ": " ++ f.message)))

/-- The line on one package, and whether the package keeps the program from running. -/
def statusLine (p : Palette) (name minimum : Text) (s : Status) : Emission × Bool :=
  let version := s.version.getD "not installed"
  if s.installed && s.meets then (.out (p.successLine false (name ++ " " ++ version)), false)
  else if optional.contains name then
    (.err (p.warningLine false
      (name ++ " " ++ version ++ " (optional, recommended >=" ++ minimum ++ ")")), false)
  else
    (.err (p.errorLine false (name ++ " " ++ version ++ " (need >=" ++ minimum ++ ")")), true)

/-- The lines on packages, and whether one of them keeps the program from running. -/
def reportLines (p : Palette) (installed : Table Text) :
    Table Text → Except Fault (List Emission × Bool)
  | [] => .ok ([], false)
  | (name, minimum) :: rest => do
    let s ← check [] installed name (some minimum) false
    let (line, bad) := statusLine p name minimum s
    let (lines, worse) ← reportLines p installed rest
    return (line :: lines, bad || worse)

/-- The advice that follows the lines if packages are missing. -/
def advice : Emission :=
  .out ("Install missing packages with:\n" ++
    "  pip install networkx>=2.8.8 packaging>=24.0\n")

/-- The **report** on all packages, and whether the program can run. -/
def report (p : Palette) (requirements installed : Table Text) :
    Except Fault (List Emission × Bool) := do
  let (lines, bad) ← reportLines p installed requirements
  return (if bad then lines ++ [advice] else lines, !bad)

end IncludeTrace.Requirement
