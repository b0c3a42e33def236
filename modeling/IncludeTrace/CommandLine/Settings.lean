import IncludeTrace.CommandLine.Options

/-!
# Settings of the program

The options that the program knows, the help on them, and the settings that a command line makes. Later
values replace earlier ones, or are added to them where an option can be repeated. Asking for help ends
the program at once. A void value is kept like any other; as the name of an export it asks for none.
-/

namespace IncludeTrace.CommandLine

/-- What the options of the program stand for. -/
inductive Choice
  | help
  | source
  | traceFile
  | includeDir
  | exportFile
  | maxDepth
  | noTree
  | noColor
  | verbose
  deriving DecidableEq

/-- The names of an option. -/
def Choice.names : Choice → List Text
  | help => ["-h", "--help"]
  | source => ["--source"]
  | traceFile => ["--trace-file"]
  | includeDir => ["-I", "--include-dir"]
  | exportFile => ["--export"]
  | maxDepth => ["--max-depth"]
  | noTree => ["--no-tree"]
  | noColor => ["--no-color"]
  | verbose => ["--verbose", "-v"]

/-- An option as the grammar lists it. -/
def Choice.switch (c : Choice) (takesValue : Bool) : Switch Choice := ⟨c, c.names, takesValue⟩

/-- The grammar of the command line. -/
def grammar : Grammar Choice :=
  ⟨[Choice.help.switch false, Choice.source.switch true, Choice.traceFile.switch true,
    Choice.includeDir.switch true, Choice.exportFile.switch true, Choice.maxDepth.switch true,
    Choice.noTree.switch false, Choice.noColor.switch false, Choice.verbose.switch false], true⟩

/-- The name of the program. -/
def program : Text := "buildCheckShowIncludes.py"

/-- The lines that say how the program is called. -/
def usage : Text :=
  "usage: buildCheckShowIncludes.py [-h] [--source FILE] [--trace-file ROOT=FILE]\n" ++
  "                                 [-I DIR] [--export FILE]\n" ++
  "                                 [--max-depth MAX_DEPTH] [--no-tree]\n" ++
  "                                 [--no-color] [--verbose]\n" ++
  "                                 [BUILD_DIR]\n"

/-- The help on the program. -/
def help : Text :=
  usage ++ "\n" ++
  "Reconstruct include graphs from compiler show-includes output.\n" ++
  "\n" ++
  "positional arguments:\n" ++
  "  BUILD_DIR             Build directory containing compile_commands.json\n" ++
  "\n" ++
  "options:\n" ++
  "  -h, --help            show this help message and exit\n" ++
  "  --source FILE         Source file to trace (default: all entries)\n" ++
  "  --trace-file ROOT=FILE\n" ++
  "                        Parse saved compiler output FILE for translation unit\n" ++
  "                        ROOT (repeatable)\n" ++
  "  -I DIR, --include-dir DIR\n" ++
  "                        Include search directory for --trace-file paths\n" ++
  "  --export FILE         Export the merged graph (extension selects the format)\n" ++
  "  --max-depth MAX_DEPTH\n" ++
  "                        Maximum depth of printed include trees (0 = unlimited)\n" ++
  "  --no-tree             Do not print include trees\n" ++
  "  --no-color            Disable colored output\n" ++
  "  --verbose, -v         Enable verbose logging\n" ++
  "\n" ++
  "Supported export formats: .graphml, .dot, .gexf, .json\n"

/-- The settings of one call of the program. -/
structure Settings where
  buildDirectory : Option Text
  sources : List Value
  traceFiles : List Value
  includeDirs : List Value
  exportFile : Option Text
  maxDepth : Option Int
  noTree : Bool
  noColor : Bool
  verbose : Bool

/-- What a command line comes to. -/
inductive Request
  | run (s : Settings)
  | help
  | fault (f : Fault)

namespace Settings

/-- The settings of an empty command line. -/
def standard : Settings := ⟨none, [], [], [], none, some 0, false, false, false⟩

/-- The settings with a limit of depth. -/
def withMaxDepth (s : Settings) : Value → Except Request Settings
  | none => .ok { s with maxDepth := none }
  | some t =>
    match t.readInt? with
    | some n => .ok { s with maxDepth := some n }
    | none => .error (.fault (.notInteger Choice.maxDepth.names t))

/-- The settings with the value of an option. -/
def withValue (s : Settings) (v : Value) : Choice → Except Request Settings
  | .source => .ok { s with sources := s.sources ++ [v] }
  | .traceFile => .ok { s with traceFiles := s.traceFiles ++ [v] }
  | .includeDir => .ok { s with includeDirs := s.includeDirs ++ [v] }
  | .exportFile => .ok { s with exportFile := v }
  | .maxDepth => s.withMaxDepth v
  | _ => .ok s

/-- The settings with an option that takes no value. -/
def withFlag (s : Settings) : Choice → Except Request Settings
  | .help => .error .help
  | .noTree => .ok { s with noTree := true }
  | .noColor => .ok { s with noColor := true }
  | .verbose => .ok { s with verbose := true }
  | _ => .ok s

/-- The settings after one event. -/
def apply (s : Settings) : Event Choice → Except Request Settings
  | .flag c => s.withFlag c
  | .value c v => s.withValue v c
  | .argument t => .ok { s with buildDirectory := some t }

/-- The settings after events, unless one of them ends the program. -/
def applyAll (s : Settings) : List (Event Choice) → Except Request Settings
  | [] => .ok s
  | e :: rest =>
    match s.apply e with
    | .ok s => applyAll s rest
    | .error r => .error r

end Settings

/-- What a command line comes to. -/
def Request.ofWords (words : List Text) : Request :=
  let scan := grammar.scan words
  match Settings.standard.applyAll scan.events, scan.fault with
  | .error r, _ => r
  | .ok _, some f => .fault f
  | .ok s, none => .run s

end IncludeTrace.CommandLine
