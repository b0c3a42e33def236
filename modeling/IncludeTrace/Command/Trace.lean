import IncludeTrace.Command.Driver
import IncludeTrace.Log

/-!
# Trace commands

A compile command becomes a **trace command** by leaving out wrappers and everything that makes the
compiler write files, and by adding the flags that make it report includes and only check the source.
-/

namespace IncludeTrace.Command

/-- The flags that write a file and take its name as the next word. -/
def outputFlagsWithName : List Text := ["-o", "-MF", "-MT", "-MQ", "-MJ"]

/-- The flags that write a file and stand alone. -/
def outputFlags : List Text := ["-c", "-M", "-MM", "-MD", "-MMD", "-MG", "-MP"]

/-- The flags that write a file and carry its name. -/
def joinedOutputFlags : List Text := ["-MF", "-MT", "-MQ", "-MJ"]

/-- The flags of MSVC drivers that write a file and carry its name. -/
def msvcOutputFlags : List Text := ["/Fo", "/Fd", "/Fe", "/Fp"]

/-- Whether a word on its own makes a driver write a file. -/
def isOutputWord (msvc : Bool) (word : Text) : Bool :=
  outputFlags.contains word || joinedOutputFlags.any word.startsWith ||
    (msvc && (word = "/c".toList || msvcOutputFlags.any word.startsWith))

/-- The words of a command without those that make the driver write files; `skip` says that the next
word is the name for a flag before it. -/
def withoutOutput (msvc skip : Bool) : List Text → List Text
  | [] => []
  | word :: rest =>
    if skip then withoutOutput msvc false rest
    else if outputFlagsWithName.contains word then withoutOutput msvc true rest
    else if isOutputWord msvc word then withoutOutput msvc false rest
    else word :: withoutOutput msvc false rest

/-- The flags that make a driver report includes and write nothing. -/
def reportFlags (msvc : Bool) : List Text :=
  if msvc then ["/showIncludes", "/Zs"] else ["-Xclang", "--show-includes", "-fsyntax-only"]

/-- The **trace command** for a compile command, reporting includes if asked to; none if nothing but
wrappers is in it. -/
def traceCommand? (arguments : List Text) (report : Bool) : Option (List Text) :=
  match arguments.dropWhile isWrapper with
  | [] => none
  | compiler :: rest =>
    let msvc := isMsvcDriver compiler
    some (compiler :: withoutOutput msvc false rest ++ if report then reportFlags msvc else [])

/-- What is said of the wrappers that are left out. -/
def wrapperLog (arguments : List Text) : List Entry :=
  (arguments.takeWhile isWrapper).map fun w => ⟨.debug, "Removing build wrapper: " ++ w⟩

end IncludeTrace.Command
