import IncludeTrace.Path.Key

/-!
# Compiler drivers

Compiler drivers come in two **families** with different flags. The family is told by the name of the
program alone. This module also knows which files can be compiled on their own and which programs are
only **wrappers** around a compiler.
-/

namespace IncludeTrace.Command

/-- The drivers with flags of the MSVC style. -/
def msvcDrivers : List Text := ["cl", "cl.exe", "clang-cl", "clang-cl.exe"]

/-- Whether a program takes flags of the MSVC style. -/
def isMsvcDriver (program : Text) : Bool := msvcDrivers.contains (Path.label program).lower

/-- The programs that are put in front of a compiler. -/
def wrappers : List Text := ["ccache", "distcc", "icecc", "sccache"]

/-- Whether a program is only a wrapper around a compiler. -/
def isWrapper (program : Text) : Bool := wrappers.contains (Path.baseName program).lower

/-- The extensions of files that can be compiled on their own. -/
def sourceExtensions : List Text := [".cpp", ".c", ".cc", ".cxx", ".c++"]

/-- Whether a file can be compiled on its own. -/
def isSource (path : Text) : Bool := sourceExtensions.any path.lower.endsWith

end IncludeTrace.Command
