import IncludeTrace.FileView
import IncludeTrace.Log
import IncludeTrace.Path.Key

/-!
# Resolving reported paths

Compilers may report a path relative to one of the search directories. `resolve` tries the directories
in order and takes the first in which the path names a file. An absolute path, and one that names no
file anywhere, stays as it is.
-/

namespace IncludeTrace

/-- The path that a reported path stands for. -/
def resolve (view : FileView) (directories : List Text) (path : Text) : Text :=
  if Path.isAbsolute path then path
  else ((directories.map fun d => Path.join d path).find? view.isFile).getD path

/-- Whether a reported path is absolute or names a file in one of the directories. -/
def isResolved (view : FileView) (directories : List Text) (path : Text) : Bool :=
  Path.isAbsolute path || (directories.map fun d => Path.join d path).any view.isFile

/-- What `resolve` has to say: that no directory had the file. -/
def resolveLog (view : FileView) (directories : List Text) (path : Text) : List Entry :=
  if isResolved view directories path then []
  else [⟨.debug, "Could not resolve '" ++ path ++ "' against " ++ Text.ofNat directories.length ++
    " search directories"⟩]

end IncludeTrace
