import IncludeTrace.CommandLine.Value
import IncludeTrace.Console
import IncludeTrace.Database.Session
import IncludeTrace.Graph.Tree
import IncludeTrace.Transcript.Void

/-!
# The work of the program

The program merges saved transcripts and traces the units of a build directory, all into one graph.
`Work` is what it has done so far: the graph, the world, whether each trace succeeded, in order, and
what was put out. A trace that fails is noted and the work goes on; only a `Stop` ends it early, and
then what was done so far stays done. Besides what the user asks for, a host that is in the way makes
for a stop: a file whose name is unfit for the system, or a text that cannot be printed.
-/

namespace IncludeTrace

open CommandLine (Value Use)

/-- What was done so far. -/
structure Work where
  graph : Graph
  world : World
  results : List (Value × Bool)
  emissions : List Emission

/-- Why the work ended early. -/
inductive Stop
  | argument (reason : Text)
  | database (f : Database.OpenFault)
  | void (use : Use)
  | unforeseen (reason : Text)
  | interrupted

namespace Work

/-- The work before anything is done. -/
def new (w : World) : Work := ⟨.empty, w, [], []⟩

/-- The work after entries were logged. -/
def logged (w : Work) (entries : List Entry) : Work :=
  { w with emissions := w.emissions ++ entries.map .log }

/-- The work with one more result. -/
def noted (w : Work) (root : Value) (success : Bool) : Work :=
  { w with results := w.results ++ [(root, success)] }

/-! ### Saved transcripts -/

/-- The translation unit and the file of its transcript, as an argument gives them. -/
def savedTranscript? (argument : Text) : Option (Text × Text) :=
  match Text.cut? ['='] argument with
  | some (root@(_ :: _), file@(_ :: _)) => some (root, file)
  | _ => none

/-- What is said of an argument that gives no transcript. -/
def notTranscript (argument : Text) : Text :=
  "--trace-file expects ROOT=FILE, got '" ++ argument ++ "'"

/-- Merges a transcript; the search directories end at the first void one. -/
def extend (w : Work) (directories : List Value) (root text : Text) : Graph × Bool × List Entry :=
  let found := Value.beforeVoid directories
  let marker := TraceLine.standardMarker
  if Value.anyVoid directories then
    w.graph.extendToVoid w.world.view root found marker text Use.search.message
  else w.graph.extend w.world.view root found marker text

/-- The work after a saved transcript was merged, if it could be read. -/
def addSaved (w : Work) (directories : List Value) (root file : Text) : Work × Option Stop :=
  match w.world.read file with
  | .error (.unfit reason) => (w, some (.unforeseen reason))
  | .error (.system e) =>
    ((w.logged [⟨.error, "Failed to read trace file " ++ file ++ ": " ++ e.message⟩]).noted root false,
      none)
  | .ok bytes =>
    let (graph, success, log) := w.extend directories root (Utf8.lossy bytes)
    ((({ w with graph := graph }).logged log).noted root success, none)

/-- The work after saved transcripts were merged. -/
def addAllSaved (directories : List Value) (w : Work) : List Value → Work × Option Stop
  | [] => (w, none)
  | none :: _ => (w, some (.void .divide))
  | some argument :: rest =>
    match savedTranscript? argument with
    | none => (w, some (.argument (notTranscript argument)))
    | some (root, file) =>
      match w.addSaved directories root file with
      | (w, none) => addAllSaved directories w rest
      | (w, some stop) => (w, some stop)

/-! ### Build directories -/

/-- What is put out about a trace that failed. -/
def failureLine (p : Palette) (r : TraceResult) : List Emission :=
  match r.verdict with
  | .merged _ => []
  | .failed kind reason =>
    [.err (p.warningLine true (r.root ++ ": " ++ kind.name ++ ": " ++ reason))]

/-- The work after a void source was traced, which fails at once. -/
def failVoid (p : Palette) (w : Work) : Work :=
  let result : TraceResult := ⟨Value.voidText, .failed .precondition Use.lowerCase.message⟩
  let w := w.logged [Trace.flagEntry result.root Use.lowerCase.message]
  { w with emissions := w.emissions ++ failureLine p result }.noted none false

/-- The work after sources were traced with an open database. -/
def traceAll (p : Palette) (database : Database) (w : Work) : List Value → Work × Option Stop
  | [] => (w, none)
  | none :: rest => traceAll p database (w.failVoid p) rest
  | some source :: rest =>
    let setup := Workshop.setup w.world.view TraceLine.standardMarker
    let r := (Session.new w.graph ⟨database, w.world⟩).trace setup source
    let workshop := r.session.outside
    let w : Work :=
      ({ w with graph := r.session.graph, world := workshop.world }).logged r.log
    match r.answer with
    | .result result =>
      let w := { w with emissions := w.emissions ++ failureLine p result }
      traceAll p workshop.database (w.noted source result.success) rest
    | _ => (w, some .interrupted)

/-- The work after the sources of a build directory were traced: the given ones, or all if none are
given. -/
def traceBuild (p : Palette) (w : Work) (directory : Text) (sources : List Value) :
    Work × Option Stop :=
  let (opened, log) := Database.openIn w.world directory Database.standardTimeout
  let w := w.logged log
  match opened with
  | .error f => (w, some (.database f))
  | .ok database =>
    if sources.isEmpty then
      let all := database.sources
      traceAll p database (w.logged [⟨.info, "Tracing all " ++ Text.ofNat all.length ++
        " translation units in " ++ directory⟩]) (all.map some)
    else traceAll p database w sources

/-! ### Printing -/

/-- The work after texts were printed, one after another, up to the first that cannot be printed. -/
def printed (w : Work) : List Text → Work × Option Stop
  | [] => (w, none)
  | t :: rest =>
    match w.world.host.unprintable? t with
    | some reason => (w, some (.unforeseen reason))
    | none => printed { w with emissions := w.emissions ++ [.out t] } rest

/-- The line of a tree below its first one. -/
def treeLine (p : Palette) (line : Text) : Text :=
  (if line.endsWith Drawing.repeatedMark then p.dim else p.cyan) ++ line ++ p.reset ++ ['\n']

/-- The lines of the tree of an item. -/
def tree (p : Palette) (g : Graph) (limit : Int) (root : Item) : List Text :=
  match g.treeLines limit "  " root with
  | [] => []
  | first :: rest =>
    ('\n' :: p.bright ++ first ++ p.reset ++ " (" ++ Text.ofNat root.includes.length ++
      " direct includes)\n") :: rest.map (treeLine p)

/-- The lines of the trees of the traces that succeeded. -/
def trees (p : Palette) (limit : Int) (w : Work) : List Text :=
  w.results.flatMap fun
    | (some root, true) =>
      match w.graph.item? w.world.cwd root with
      | some i => tree p w.graph limit i
      | none => []
    | _ => []

/-- The files whose traces failed. -/
def failed (w : Work) : List Value := (w.results.filter fun r => !r.2).map Prod.fst

/-- The line with the totals. -/
def totals (p : Palette) (w : Work) : Text :=
  '\n' :: p.bright ++ "Include graph:" ++ p.reset ++ " " ++ Text.ofNat w.graph.size ++ " files, " ++
    Text.ofNat w.graph.edgeCount ++ " includes from " ++ Text.ofNat w.results.length ++
    " translation unit(s)\n"

end Work

end IncludeTrace
