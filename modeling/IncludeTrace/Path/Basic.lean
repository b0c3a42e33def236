import IncludeTrace.Text.Basic

/-!
# Paths

A path is a text whose **segments** stand between slashes. Everything here is lexical: no disk is
asked. `Path.normal` removes empty segments and `.`, and lets `..` take back the segment before it;
`Path.absolute` does so after joining the path to the current directory.

A path that begins with exactly two slashes keeps both of them, because they name a network share.
-/

namespace IncludeTrace.Path

/-- The slashes that normal form keeps at the beginning of a path. -/
def root : Text → Text
  | '/' :: '/' :: '/' :: _ => ['/']
  | '/' :: '/' :: _ => ['/', '/']
  | '/' :: _ => ['/']
  | _ => []

/-- Adds a segment to those kept so far, innermost first. At the root of a rooted path `..` leads
nowhere; in a path that is not rooted it is kept. -/
def addSegment (rooted : Bool) (kept : List Text) (segment : Text) : List Text :=
  if segment = [] ∨ segment = ['.'] then kept
  else if segment = ['.', '.'] then
    match kept with
    | [] => if rooted then [] else [segment]
    | last :: rest => if last = ['.', '.'] then segment :: kept else rest
  else segment :: kept

/-- The segments that remain of a path, outermost first. -/
def segments (p : Text) : List Text :=
  ((p.pieces '/').foldl (addSegment !(root p).isEmpty) []).reverse

/-- The **normal form** of a path; a path with nothing left is `.`. -/
def normal (p : Text) : Text :=
  let whole := root p ++ Text.join ['/'] (segments p)
  if whole.isEmpty then ['.'] else whole

/-- The path `p` as seen from `directory`: itself if it is rooted, else one behind the other. -/
def join (directory p : Text) : Text :=
  if p.startsWith ['/'] then p
  else if directory.isEmpty || directory.endsWith ['/'] then directory ++ p
  else directory ++ '/' :: p

/-- The normal form of `p` as seen from the current directory `cwd`. -/
def absolute (cwd p : Text) : Text := normal (join cwd p)

/-- A path without the slashes it ends in, unless it is made of slashes only. -/
def dropEndSlashes (p : Text) : Text :=
  if p.all (· = '/') then p else (p.reverse.dropWhile (· = '/')).reverse

/-- What stands before the last slash. -/
def directory (p : Text) : Text := dropEndSlashes (p.throughLast '/')

/-- What stands behind the last slash. -/
def baseName (p : Text) : Text := p.afterLast '/'

/-- The last dot of the base name and what follows it; dots the base name begins with do not
count. -/
def extension (p : Text) : Text :=
  let name : Text := (baseName p).dropWhile (· = '.')
  if name.contains '.' then '.' :: name.afterLast '.' else []

end IncludeTrace.Path
