import IncludeTrace.Text.Basic

/-!
# What can be asked of the disk

Resolving a reported path needs two things of the disk: the current directory and which paths name a
file. `FileView` holds just these, so that merging transcripts depends on nothing else.
-/

namespace IncludeTrace

/-- The current directory and the paths that name a file. -/
structure FileView where
  cwd : Text
  isFile : Text → Bool

end IncludeTrace
