import IncludeTrace.Graph.Basic
import IncludeTrace.Transcript.Line
import IncludeTrace.Transcript.Resolve

/-!
# Merging transcripts

A transcript walks the include tree of one translation unit depth first. Merging follows it with a
**chain** of items that leads from the unit down to the file whose includes are being reported. A
line deeper than the chain descends into the include that was added last, by one level however deep
the line is; a shallower line climbs back. Either way the reported file becomes one more include of
the item at the end of the chain.

A line may only descend into includes of its own transcript. So the first trace line of a transcript
has to be a direct include; `Merge.Fault` reports one that is not.
-/

namespace IncludeTrace

namespace Merge

/-- A line that would descend although its transcript has reported nothing to descend into. -/
structure Fault where
  depth : Nat
  path : Text
  deriving DecidableEq

/-- The sentence that reports the fault. -/
def Fault.message (f : Fault) : Text :=
  "Include at depth " ++ Text.ofNat f.depth ++ " descends into '" ++ f.path ++
    "' which has no includes recorded by this trace"

/-- What a merge counts. -/
structure Stats where
  lines : Nat
  traceLines : Nat
  edgesAdded : Nat
  maxDepth : Nat
  deriving DecidableEq

/-- A merge under way: the graph, the keys of the chain below the translation unit, innermost first,
how many edges were added and trace lines read, the greatest depth among these, and the log. -/
structure Progress where
  graph : Graph
  chain : List Text
  edges : Nat
  read : Nat
  deepest : Nat
  log : List Entry

/-- What stays the same during a merge: the key of the translation unit and what resolves paths. -/
structure Setting where
  view : FileView
  root : Text
  directories : List Text

/-- The setting for a translation unit. Its own directory is searched before the others. -/
def Setting.ofUnit (view : FileView) (unit : Text) (directories : List Text) : Setting :=
  ⟨view, Path.key view.cwd unit, Path.sourceDirectory view.cwd unit :: directories⟩

/-- A merge at its beginning: the translation unit is in the graph. -/
def Progress.start (g : Graph) (cwd unit : Text) : Progress :=
  ⟨g.ensure cwd unit, [], 0, 0, 0, g.ensureLog cwd unit⟩

/-- The key of the item at the end of the chain. -/
def Progress.tip (s : Setting) (p : Progress) : Text := p.chain.headD s.root

/-- The chain that a line of the given depth hangs on. -/
def Progress.chainFor (s : Setting) (p : Progress) (depth : Nat) : Except Fault (List Text) :=
  if p.chain.length < depth then
    match p.edges, (p.graph.includesOf (p.tip s)).getLast? with
    | _ + 1, some last => .ok (last :: p.chain)
    | _, _ => .error ⟨depth, p.graph.pathOf (p.tip s)⟩
  else .ok (p.chain.drop (p.chain.length - depth))

/-- What is said of a line that is more than one level deeper than the chain. -/
def Progress.jumpLog (p : Progress) (depth : Nat) : List Entry :=
  if p.chain.length + 1 < depth then
    [⟨.debug, "Depth jumped from " ++ Text.ofNat p.chain.length ++ " to " ++ Text.ofNat depth ++
      "; descending one level"⟩]
  else []

/-- Reads one trace line. -/
def Progress.add (s : Setting) (p : Progress) (line : TraceLine) : Except Fault Progress := do
  let chain ← p.chainFor s line.depth
  let path := resolve s.view s.directories line.path
  let parent := chain.headD s.root
  return {
    graph := (p.graph.ensure s.view.cwd path).addInclude parent (Path.key s.view.cwd path)
    chain := chain
    edges := p.edges + 1
    read := p.read + 1
    deepest := max p.deepest line.depth
    log := p.log ++ p.jumpLog line.depth ++ resolveLog s.view s.directories line.path ++
      p.graph.ensureLog s.view.cwd path }

/-- Reads trace lines until one is at fault. -/
def Progress.addAll (s : Setting) (p : Progress) : List TraceLine → Progress × Option Fault
  | [] => (p, none)
  | line :: rest =>
    match p.add s line with
    | .ok p' => addAll s p' rest
    | .error fault => (p, some fault)

/-- What a merge gives: the graph in any case, and the statistics unless a line was at fault. -/
structure Report where
  graph : Graph
  verdict : Except Fault Stats
  log : List Entry

end Merge

open Merge in
/-- **Merges** the transcript of a translation unit into a graph. -/
def Graph.merge (g : Graph) (view : FileView) (root : Text) (directories : List Text)
    (marker text : Text) : Report :=
  let lines := text.lines
  let setting := Setting.ofUnit view root directories
  match (Progress.start g view.cwd root).addAll setting (TraceLine.ofLines marker lines) with
  | (p, some fault) => ⟨p.graph, .error fault, p.log⟩
  | (p, none) =>
    let stats : Stats := ⟨lines.length, p.read, p.edges, p.deepest⟩
    ⟨p.graph, .ok stats, p.log ++ [⟨.debug, "Parsed " ++ Text.ofNat stats.traceLines ++
      " trace lines out of " ++ Text.ofNat stats.lines ++ " for " ++ root ++ " (" ++
      Text.ofNat stats.edgesAdded ++ " edges, max depth " ++ Text.ofNat stats.maxDepth ++ ")"⟩]⟩

/-- What is said of a transcript that could not be merged. -/
def Merge.failureEntry (root reason : Text) : Entry :=
  ⟨.error, "Failed to parse show-includes output of '" ++ root ++ "': " ++ reason⟩

/-- What is said of a transcript with a line at fault. -/
def Merge.Fault.entry (root : Text) (f : Merge.Fault) : Entry :=
  Merge.failureEntry root f.message

/-- Merges a transcript and tells whether it could be merged. -/
def Graph.extend (g : Graph) (view : FileView) (root : Text) (directories : List Text)
    (marker text : Text) : Graph × Bool × List Entry :=
  let report := g.merge view root directories marker text
  match report.verdict with
  | .ok _ => (report.graph, true, report.log)
  | .error fault => (report.graph, false, report.log ++ [fault.entry root])

end IncludeTrace
