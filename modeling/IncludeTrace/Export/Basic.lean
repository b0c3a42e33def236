import IncludeTrace.Console
import IncludeTrace.Json.Writer
import IncludeTrace.World.Basic

/-!
# Exporting graphs

A graph is exported to a file; the extension of its name selects the format. A name with any other
extension gets the extension of GraphML. Node-link documents are written here, from the value that the
library makes; for the other formats the library is given the file (`Export.course`).

Everything that goes wrong on the way ends the export without success: the library fails, the file
cannot be opened, not all of the document is stored, or the success cannot be announced. What was done
to the file until then stays done.
-/

namespace IncludeTrace

/-- A format that graphs are exported to. -/
inductive Format
  | graphMl
  | dot
  | gexf
  | nodeLink
  deriving DecidableEq

namespace Format

/-- All formats. -/
def all : List Format := [graphMl, dot, gexf, nodeLink]

/-- The extension of the files in a format. -/
def extension : Format → Text
  | graphMl => ".graphml"
  | dot => ".dot"
  | gexf => ".gexf"
  | nodeLink => ".json"

/-- The format with an extension. -/
def ofExtension? (e : Text) : Option Format := all.find? fun f => f.extension = e

end Format

/-- What an export gives: the world, whether it succeeded, and what is put out. -/
structure ExportOutcome where
  world : World
  written : Bool
  emissions : List Emission

namespace Export

/-- The format and the name of the file to write, with what is said about the choice. -/
def target (filename : Text) : Format × Text × List Entry :=
  let e := (Path.extension filename).lower
  match Format.ofExtension? e with
  | some f => (f, filename, [])
  | none => (.graphMl, filename ++ Format.graphMl.extension,
      [⟨.warning, "Unsupported graph format: " ++ e ++ ". Defaulting to GraphML."⟩])

/-- What is done to the file of an export: the value of a node-link document is made before the file is
opened, and the rest is up to the library. -/
def course (library : Library) (date : Text) (dotWriter : Bool) (m : Multigraph) : Format → Course
  | .graphMl => library.graphMl m
  | .dot => library.dot dotWriter m
  | .gexf => library.gexf date m
  | .nodeLink =>
    match library.nodeLink m with
    | .error f => .closed f
    | .ok v => .opened v.renderIndented none

/-- The world after a course was taken with a file, and the failure that it ended in. -/
def take (w : World) (name : Text) : Course → World × Option Failure
  | .closed f => (w, some f)
  | .opened text f =>
    match w.openPlace? name with
    | .error refusal => (w, some (.other refusal.message))
    | .ok place =>
      let (w', reason) := w.store place text
      (w', (reason.map .other).or f)

/-- What is put out about a failure. -/
def failureEmissions (p : Palette) : Failure → List Emission
  | .missing =>
    [.log ⟨.error, "Missing dependency for graph export"⟩,
      .err (p.errorLine true
        "Missing dependency for graph export. Install pydot for DOT format.")]
  | .other reason =>
    let text : Text := "Failed to export graph: " ++ reason
    [.log ⟨.error, text⟩, .err (p.errorLine true text)]

/-- What is said about a success. -/
def success (name : Text) : Text := "Exported include graph to " ++ name

/-- Announces a success: whether that succeeds, and what is put out. -/
def announce (host : Host) (p : Palette) (name : Text) : Bool × List Emission :=
  let entry := .log ⟨.info, success name⟩
  let line := p.successLine false (success name)
  match host.unprintable? line with
  | none => (true, [entry, .out line])
  | some reason => (false, entry :: failureEmissions p (.other reason))

/-- What an export gives after a course was taken with the file. -/
def conclude (host : Host) (p : Palette) (name : Text) (before : List Emission) :
    World × Option Failure → ExportOutcome
  | (w, some f) => ⟨w, false, before ++ failureEmissions p f⟩
  | (w, none) =>
    let (written, emissions) := announce host p name
    ⟨w, written, before ++ emissions⟩

end Export

namespace Graph

/-- What is done to the file of an export of a graph. -/
def exportCourse (g : Graph) (w : World) (dotWriter : Bool) (filename : Text) : Course :=
  Export.course w.host.library w.today dotWriter g.multigraph (Export.target filename).1

/-- **Exports** a graph to a file. -/
def exportTo (g : Graph) (w : World) (p : Palette) (dotWriter : Bool) (filename : Text) :
    ExportOutcome :=
  let (_, name, choice) := Export.target filename
  Export.conclude w.host p name (.log g.multigraphLog :: choice.map Emission.log)
    (Export.take w name (g.exportCourse w dotWriter filename))

end Graph

end IncludeTrace
