import IncludeTrace.Export.Standard
import IncludeTrace.Path.Basic
import IncludeTrace.World.Host

/-!
# The standard host

The host of described worlds has the standard library of formats, and nothing on it is in the way: every
text is fit, every file that is there is opened, what is written is stored, and what is printed appears.

Paths are looked up by what they say alone: `a/..` leads back whether there is a directory `a` or not.
This is how the described files are meant. Other hosts may look paths up otherwise.
-/

namespace IncludeTrace.Host

/-- The absolute normal form of `path` with one slash in front. -/
def lexically (cwd path : Text) : Text :=
  match Path.absolute cwd path with
  | '/' :: '/' :: rest => '/' :: rest
  | q => q

/-- The **standard host**. -/
def standard : Host where
  locate := lexically
  unfit? _ := none
  denial? _ _ := none
  spill? _ _ := none
  unprintable? _ := none
  dotWriter := true
  library := .standard

end IncludeTrace.Host
