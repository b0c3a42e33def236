import IncludeTrace.Path.Basic
import IncludeTrace.Text.Casing

/-!
# Keys of paths

Compilers report one file under many spellings. The **key** of a path is the spelling they share:
backslashes are slashes, the path is absolute and in normal form, and letters are in lower case. A
path with a drive letter or on a network share is **foreign**: it is absolute as it stands, whatever
the current directory is.
-/

namespace IncludeTrace.Path

/-- The path with every backslash turned into a slash. -/
def slashed (p : Text) : Text := p.map fun c => if c = '\\' then '/' else c

/-- Whether a character is one of the letters that name drives. -/
def isDriveLetter (c : Char) : Bool := ('A' ≤ c && c ≤ 'Z') || ('a' ≤ c && c ≤ 'z')

/-- Whether a path begins with a drive letter, a colon and a slash. -/
def hasDrive : Text → Bool
  | letter :: ':' :: '/' :: _ => isDriveLetter letter
  | _ => false

/-- Whether a path is **foreign**: on a drive or on a network share. -/
def isForeign (p : Text) : Bool := hasDrive (slashed p) || (slashed p).startsWith ['/', '/']

/-- Whether a path needs no current directory: it begins with a slash or is foreign. -/
def isAbsolute (p : Text) : Bool := p.startsWith ['/'] || isForeign p

/-- The **key** of a path in the current directory `cwd`. -/
def key (cwd p : Text) : Text :=
  if isForeign p then (normal (slashed p)).lower
  else (slashed (absolute cwd (slashed p))).lower

/-- The spelling under which a file is shown: the one it was first named by, made absolute. -/
def shown (cwd p : Text) : Text := if isAbsolute p then p else absolute cwd p

/-- The directory that holds a file. -/
def sourceDirectory (cwd p : Text) : Text :=
  if isForeign p then directory (normal (slashed p)) else directory (absolute cwd p)

/-- The last part of a path in any separator style. -/
def label (p : Text) : Text := baseName (slashed p)

end IncludeTrace.Path
