import IncludeTrace.CommandLine.Settings
import IncludeTrace.CommandLine.Work
import IncludeTrace.Export.Basic
import IncludeTrace.Package.Requirement

/-!
# The program

`CommandLine.run` is the whole program: from the world and the words of the command line to an exit
code, a new world and what is put out. First the package that graphs need is checked, then the command
line is read; then transcripts are merged, trees and totals printed and the graph exported.

The exit code is 0 if every trace and the export succeeded and all was printed, 1 if the command line or
the build directory is at fault, 2 for any other failure and 130 after an interrupt.
-/

namespace IncludeTrace.CommandLine

/-- How the program ended. -/
structure Finish where
  exitCode : Nat
  world : World
  verbose : Bool
  emissions : List Emission

namespace Finish

/-- What is printed on standard output. -/
def standardOutput (f : Finish) : Text := Emission.standardOutput f.emissions

/-- What is printed on standard error, log lines included. -/
def standardError (f : Finish) : Text := Emission.standardErrorWithLog f.verbose f.emissions

end Finish

/-- Why settings cannot be followed. -/
def complaint? (s : Settings) : Option Stop :=
  let noBuild := (s.buildDirectory.getD []).isEmpty
  if noBuild && s.traceFiles.isEmpty then
    some (.argument "Either BUILD_DIR or --trace-file is required")
  else if !s.sources.isEmpty && noBuild then some (.argument "--source requires BUILD_DIR")
  else match s.maxDepth with
    | none => some (.void .compare)
    | some limit =>
      if limit < 0 then some (.argument "--max-depth must be 0 or greater") else none

/-- What is put out about something unforeseen, and the exit code. -/
def unforeseenEmissions (p : Palette) (reason : Text) : List Emission × Nat :=
  ([.log ⟨.critical, "Unexpected error: " ++ reason⟩,
    .err (p.errorLine true ("Fatal error: " ++ reason))], 2)

/-- What is put out about an early end, and the exit code. -/
def stopEmissions (p : Palette) : Stop → List Emission × Nat
  | .argument reason => ([.log ⟨.error, reason⟩], 1)
  | .interrupted => ([.log ⟨.warning, "Interrupted by user"⟩], 130)
  | .database f =>
    if f.isForeseen then ([.log ⟨.error, f.message⟩], 1) else unforeseenEmissions p f.message
  | .void use => unforeseenEmissions p use.message
  | .unforeseen reason => unforeseenEmissions p reason

/-- The traces that settings ask for: saved transcripts, then the build directory. -/
def collect (p : Palette) (s : Settings) (w : World) : Work × Option Stop :=
  match Work.addAllSaved s.includeDirs (.new w) s.traceFiles with
  | (work, some stop) => (work, some stop)
  | (work, none) =>
    match s.buildDirectory with
    | some (c :: directory) => work.traceBuild p (c :: directory) s.sources
    | _ => (work, none)

/-- What is printed of work: the trees, unless they are not wanted, and the totals. -/
def shown (p : Palette) (s : Settings) (work : Work) : List Text :=
  (if s.noTree then [] else work.trees p (s.maxDepth.getD 0)) ++ [work.totals p]

/-- The line that is printed if no trace failed. -/
def mergedLine (p : Palette) : Text := p.successLine false "All traces merged"

/-- What is put out at the end, and the exit code. A void source cannot be listed among those that
failed. -/
def verdict (p : Palette) (work : Work) : List Emission × Nat :=
  let failed := work.failed
  match failed.findIdx? Option.isNone with
  | some place => unforeseenEmissions p (Use.list place).message
  | none =>
    if failed.isEmpty then
      match work.world.host.unprintable? (mergedLine p) with
      | some reason => unforeseenEmissions p reason
      | none => ([.out (mergedLine p)], 0)
    else
      ([.err (p.errorLine true (Text.ofNat failed.length ++ " of " ++
        Text.ofNat work.results.length ++ " trace(s) failed: " ++
        Text.join ", " (Value.beforeVoid failed)))], 2)

/-- Exports the graph, if settings ask for it: the world, whether that went well, and what is put
out. -/
def exportAsked (p : Palette) (s : Settings) (work : Work) : ExportOutcome :=
  match s.exportFile with
  | some (c :: name) => work.graph.exportTo work.world p work.world.host.dotWriter (c :: name)
  | _ => ⟨work.world, true, []⟩

/-- What work comes to that ends early. -/
def ended (p : Palette) (work : Work) (stop : Stop) : World × List Emission × Nat :=
  let (last, code) := stopEmissions p stop
  (work.world, work.emissions ++ last, code)

/-- What work comes to that was shown: the export that settings ask for, and the verdict. -/
def concluded (p : Palette) (s : Settings) (work : Work) : World × List Emission × Nat :=
  let exported := exportAsked p s work
  let (last, code) := if exported.written then verdict p work else ([], 2)
  (exported.world, work.emissions ++ exported.emissions ++ last, code)

/-- Follows settings that can be followed. -/
def follow (p : Palette) (s : Settings) (w : World) : World × List Emission × Nat :=
  match collect p s w with
  | (work, some stop) => ended p work stop
  | (work, none) =>
    match work.printed (shown p s work) with
    | (work, some stop) => ended p work stop
    | (work, none) => concluded p s work

/-- Follows settings, or complains about them. -/
def runSettings (s : Settings) (w : World) : Finish :=
  let p := if s.noColor then Palette.plain else Palette.ansi
  match complaint? s with
  | some stop =>
    let (last, code) := stopEmissions p stop
    ⟨code, w, s.verbose, last⟩
  | none =>
    let (w, emissions, code) := follow p s w
    ⟨code, w, s.verbose, emissions⟩

/-- **Runs** the program. -/
def run (w : World) (words : List Text) : Finish :=
  match Requirement.complaint .ansi Requirement.standard w.installed "networkx"
      "include graph construction" with
  | some e => ⟨2, w, false, [e]⟩
  | none =>
    match Request.ofWords words with
    | .help => ⟨0, w, false, [.out help]⟩
    | .fault f => ⟨2, w, false, [.err (usage ++ program ++ ": error: " ++ f.message ++ ['\n'])]⟩
    | .run s => runSettings s w

end IncludeTrace.CommandLine
