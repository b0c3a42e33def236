import IncludeTrace.Command.Search
import IncludeTrace.Command.Trace
import IncludeTrace.Database.Entry
import IncludeTrace.Json.Reader
import IncludeTrace.Outcome
import IncludeTrace.Text.Lines
import IncludeTrace.World.Basic

/-!
# Compilation databases

A build directory holds a file that lists how each of its translation units is compiled. `Database.load`
reads the file, `Database.build?` looks its entries up by key: a later entry takes the place of an
earlier one for the same file. An open database also remembers for which files the reporting of
includes is switched on, and runs trace commands.
-/

namespace IncludeTrace

/-- One translation unit: its entry, the file and the directory it is compiled in. -/
structure TranslationUnit where
  fields : Table Json Letters
  file : Text
  directory : Text

/-- An open database. -/
structure Database where
  buildDirectory : Text
  path : Text
  timeout : Number
  units : Table TranslationUnit
  flags : Table Bool

namespace Database

/-- The name of the file in a build directory. -/
def fileName : Text := "compile_commands.json"

/-- How long a trace command may run, in seconds. -/
def standardTimeout : Number := .whole 300

/-! ### Loading -/

/-- Why a database cannot be opened. -/
inductive OpenFault
  | noDirectory (directory : Text)
  | noFile (directory : Text)
  | unreadable (path : Text) (e : SystemError)
  | unfit (reason : Text)
  | notJson (path document : Text) (f : Json.Fault)
  | notList (path : Text)
  | notUtf8 (f : Utf8.Fault)
  | longNumeral (digits : Nat)
  | tooDeep (inList : Bool)
  | directoryNotText (v : Json)
  | fileNotText (v : Json)

/-- The fault in words. -/
def OpenFault.message : OpenFault → Text
  | .noDirectory d => "Build directory does not exist: " ++ d
  | .noFile d => fileName ++ " not found in " ++ d
  | .unreadable p e => "Failed to read " ++ p ++ ": " ++ e.message
  | .unfit reason => reason
  | .notJson p document f => "Failed to read " ++ p ++ ": " ++ f.message document
  | .notList p => p ++ " does not contain a list of compile commands"
  | .notUtf8 f => f.message
  | .longNumeral digits => (Json.Cause.longNumeral digits).message
  | .tooDeep inList => (Json.Cause.tooDeep inList).message
  | .directoryNotText v => "expected str, bytes or os.PathLike object, not " ++ v.kindName
  | .fileNotText v =>
    "join() argument must be str, bytes, or os.PathLike object, not '" ++ v.kindName ++ "'"

/-- Whether a fault is in the build directory itself, and not in something unforeseen. -/
def OpenFault.isForeseen : OpenFault → Bool
  | .noDirectory _ | .noFile _ | .unreadable _ _ | .notJson _ _ _ | .notList _ => true
  | .unfit _ | .notUtf8 _ | .longNumeral _ | .tooDeep _ | .directoryNotText _ | .fileNotText _ => false

/-- The fault of a database file that is not opened. -/
def OpenFault.ofRefusal (path : Text) : OpenRefusal → OpenFault
  | .system e => .unreadable path e
  | .unfit reason => .unfit reason

/-- The value that a document holds. -/
def readDocument (path document : Text) : Except OpenFault Json :=
  match Json.read document with
  | .ok v => .ok v
  | .error ⟨.longNumeral digits, _⟩ => .error (.longNumeral digits)
  | .error ⟨.tooDeep inList, _⟩ => .error (.tooDeep inList)
  | .error f => .error (.notJson path document f)

/-- The entries in a database file. -/
def load (w : World) (path : Text) : Except OpenFault (List Json) := do
  let bytes ← (w.read path).mapError (.ofRefusal path)
  let document ← (Utf8.strict bytes).mapError .notUtf8
  match ← readDocument path document.unifyLines with
  | .list entries => return entries
  | _ => throw (.notList path)

/-- The translation unit of an entry; none if the entry is not an object or names no file. -/
def unit? (buildDirectory : Text) : Json → Except OpenFault (Option TranslationUnit)
  | .object fields =>
    match Table.get? fields "file" with
    | none => .ok none
    | some file =>
      match (Table.get? fields "directory").getD (.text buildDirectory), file with
      | .string directory, .string file => .ok (some ⟨fields, file.toText, directory.toText⟩)
      | .string _, v => .error (.fileNotText v)
      | v, _ => .error (.directoryNotText v)
  | _ => .ok none

/-- The key under which a unit is found. -/
def unitKey (cwd : Text) (u : TranslationUnit) : Text := Path.key cwd (Path.join u.directory u.file)

/-- Puts the units of entries into a table, with what is said of entries that are no units. -/
def collectUnits (cwd buildDirectory : Text) (units : Table TranslationUnit) :
    List Json → Except OpenFault (Table TranslationUnit) × List Entry
  | [] => (.ok units, [])
  | entry :: rest =>
    match unit? buildDirectory entry with
    | .error f => (.error f, [])
    | .ok (some u) => collectUnits cwd buildDirectory (units.put (unitKey cwd u) u) rest
    | .ok none =>
      let (result, log) := collectUnits cwd buildDirectory units rest
      (result, ⟨.warning, "Skipping invalid entry in " ++ fileName ++ ": " ++ entry.display⟩ :: log)

/-- **Opens** the database of a build directory. -/
def openIn (w : World) (directory : Text) (timeout : Number) :
    Except OpenFault Database × List Entry :=
  if !w.isDirectory directory then (.error (.noDirectory directory), [])
  else
    let buildDirectory := Path.absolute w.cwd directory
    let path := Path.join buildDirectory fileName
    if !w.isFile path then (.error (.noFile buildDirectory), [])
    else match load w path with
      | .error f => (.error f, [])
      | .ok entries =>
        match collectUnits w.cwd buildDirectory [] entries with
        | (.error f, log) => (.error f, log)
        | (.ok units, log) =>
          (.ok ⟨buildDirectory, path, timeout, units, []⟩, log ++ [⟨.debug, "Loaded " ++
            Text.ofNat units.length ++ " compile commands from " ++ path⟩])

/-! ### Asking -/

/-- Why a file cannot be traced. -/
inductive Fault
  | notSource (path : Text)
  | unknown (path database : Text)
  | entry (f : EntryFault)
  | noCompiler
  | missingCompiler (compiler : Text)
  | timedOut (path : Text) (timeout : Number)
  | system (e : SystemError)
  | unforeseen (reason : Text)

/-- The fault in words. -/
def Fault.message : Fault → Text
  | .notSource p => "'" ++ p ++ "' is not a compilable source file"
  | .unknown p database => "'" ++ p ++ "' is not in " ++ database
  | .entry f => f.message
  | .noCompiler => "Compile command has no compiler"
  | .missingCompiler c => "Compiler '" ++ c ++ "' not found in PATH"
  | .timedOut p timeout =>
    "Compilation of '" ++ p ++ "' timed out after " ++ timeout.text ++ " seconds"
  | .system e => e.message
  | .unforeseen reason => reason

/-- The paths of all units. -/
def sources (db : Database) : List Text :=
  db.units.map fun entry => Path.normal (Path.join entry.2.directory entry.2.file)

/-- The unit that a path names. -/
def find (db : Database) (cwd path : Text) : Except Fault TranslationUnit :=
  if !Command.isSource path then .error (.notSource path)
  else match db.units.get? (Path.key cwd path) with
    | some u => .ok u
    | none => .error (.unknown path db.path)

/-- The directories that a unit searches. -/
def directories (db : Database) (cwd path : Text) : Except Fault (List Text) := do
  let u ← db.find cwd path
  let words ← (entryWords u.fields).mapError .entry
  return Command.searchDirectories cwd words u.directory

/-- Whether the reporting of includes is switched on for a file. -/
def flag (db : Database) (cwd path : Text) : Except Fault Bool := do
  let _ ← db.find cwd path
  return (db.flags.get? (Path.key cwd path)).getD false

/-- The database with the reporting of includes switched for a file. -/
def setFlag (db : Database) (cwd path : Text) (on : Bool) : Except Fault Database := do
  let _ ← db.find cwd path
  return { db with flags := db.flags.put (Path.key cwd path) on }

/-! ### Running -/

/-- The output of a compiler as one text: both outputs decoded, the second on a line of its own. -/
def joinOutputs (out err : Text) : Text :=
  if out.isEmpty || out.endsWith ['\n'] || out.endsWith ['\r'] then out ++ err
  else out ++ '\n' :: err

/-- What is said of a compiler that did not succeed. -/
def exitLog (path : Text) (code : Int) (err : Text) : List Entry :=
  if code = 0 then []
  else
    ⟨.warning, "Compilation of " ++ path ++ " failed with code " ++ Text.ofInt code⟩ ::
      if err.isEmpty then [] else [⟨.debug, "Stderr: " ++ err.take 500⟩]

/-- What is said before a compiler is run. -/
def runLog (path : Text) (command : List Text) : List Entry :=
  [⟨.info, "Compiling " ++ path ++ " with show includes..."⟩,
    ⟨.debug, "Command: " ++ Text.join [' '] command⟩]

/-- What a run of a trace command gives. -/
structure RunResult where
  outcome : Outcome Fault Text
  world : World
  log : List Entry

/-- What came of a compiler run. -/
def concludeRun (path : Text) (timeout : Number) : Run → Outcome Fault Text × List Entry
  | .timedOut => (.failure (.timedOut path timeout), [])
  | .refused e => (.failure (.system e), [])
  | .failed reason => (.failure (.unforeseen reason), [])
  | .interrupted => (.interrupted, [])
  | .exited out err code =>
    let err := (Utf8.lossy err).unifyLines
    (.value (joinOutputs (Utf8.lossy out).unifyLines err), exitLog path code err)

/-- The trace command of a file, with the directory to run it in and what is said about it. -/
def traceCommand (db : Database) (cwd path : Text) :
    Except Fault (List Text × Text) × List Entry :=
  match db.find cwd path with
  | .error f => (.error f, [])
  | .ok u =>
    match entryWords u.fields with
    | .error f => (.error (.entry f), [])
    | .ok words =>
      let on := (db.flags.get? (Path.key cwd path)).getD false
      match Command.traceCommand? words on with
      | none => (.error .noCompiler, Command.wrapperLog words)
      | some command => (.ok (command, u.directory), Command.wrapperLog words)

/-- **Runs** the trace command of a file. A compiler that fails still reports what it opened. A command
with a word that is unfit for the system is not run, and neither is one in an unfit directory. -/
def run (db : Database) (w : World) (path : Text) : RunResult :=
  match db.traceCommand w.cwd path with
  | (.error f, log) => ⟨.failure f, w, log⟩
  | (.ok (command, directory), log) =>
    let compiler := command.headD []
    if !w.hasProgram compiler then ⟨.failure (.missingCompiler compiler), w, log⟩
    else
      let log := log ++ runLog path command
      match w.run ⟨command, directory, db.timeout⟩ with
      | .error reason => ⟨.failure (.unforeseen reason), w, log⟩
      | .ok (r, w') =>
        let (outcome, after) := concludeRun path db.timeout r
        ⟨outcome, w', log ++ after⟩

end Database

end IncludeTrace
