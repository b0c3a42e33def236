import IncludeTrace.Transcript.Merge

/-!
# Merging up to a void directory

Behind the directories that can be searched there may be one that is **void**: it was given, but it
names nothing. A search that comes to it fails, and the merge fails with it. Lines whose files are
found in front of it are merged as ever, so `Graph.extendToVoid` is `Graph.extend` for a transcript that
has no other lines.
-/

namespace IncludeTrace

open Merge in
/-- Merges a transcript where a void directory follows the others, and tells whether it could be merged;
`reason` is what makes a search fail there. -/
def Graph.extendToVoid (g : Graph) (view : FileView) (unit : Text) (directories : List Text)
    (marker text reason : Text) : Graph × Bool × List Entry :=
  let setting := Setting.ofUnit view unit directories
  let isFound : TraceLine → Bool := fun line => isResolved view setting.directories line.path
  let lines := TraceLine.ofLines marker text.lines
  match (Progress.start g view.cwd unit).addAll setting (lines.takeWhile isFound),
      lines.dropWhile isFound with
  | (p, none), line :: _ =>
    match p.chainFor setting line.depth with
    | .ok _ => (p.graph, false, p.log ++ p.jumpLog line.depth ++ [failureEntry unit reason])
    | .error fault => (p.graph, false, p.log ++ [fault.entry unit])
  | _, _ => g.extend view unit directories marker text

end IncludeTrace
