import IncludeTrace.Decimal.Number
import IncludeTrace.FileView
import IncludeTrace.Path.Basic
import IncludeTrace.Table
import IncludeTrace.Text.Utf8
import IncludeTrace.World.Host

/-!
# The world outside

Everything the program meets outside itself is a value: the files with their bytes, the directories, the
programs that can be found, what successive compiler runs will do, which packages are installed, the
date, and the host. Writing a file and running a compiler give a new world, in which what was written
and what was run can be read off.

A file that is written is opened first, and it is empty then. So whether it could be opened is one
question (`World.openPlace?`), and whether all that was written to it was stored another one.
-/

namespace IncludeTrace

/-- What a compiler run does. It may be refused by the system, or fail for any other reason. -/
inductive Run
  | exited (out err : List UInt8) (code : Int)
  | timedOut
  | refused (e : SystemError)
  | failed (reason : Text)
  | interrupted

/-- A compiler run as it was asked for. -/
structure Invocation where
  command : List Text
  directory : Text
  timeout : Number

/-- The state of everything outside the program. Files and directories stand under their looked-up
paths. -/
structure World where
  cwd : Text
  files : Table (List UInt8)
  directories : List Text
  programs : List Text
  runs : List Run
  installed : Table Text
  today : Text
  invocations : List Invocation
  written : Table Text
  host : Host

/-- Why a file is not opened: the system refuses, or its name is unfit to be asked for. -/
inductive OpenRefusal
  | system (e : SystemError)
  | unfit (reason : Text)
  deriving DecidableEq

/-- The refusal in words. -/
def OpenRefusal.message : OpenRefusal → Text
  | system e => e.message
  | unfit reason => reason

namespace World

/-- The path under which `p` is looked up. -/
def locate (w : World) (p : Text) : Text := w.host.locate w.cwd p

/-- Whether a text can be handed to the system. -/
def isFit (w : World) (t : Text) : Bool := (w.host.unfit? t).isNone

/-- The bytes of the file that `p` names, if it names one. -/
def bytes? (w : World) (p : Text) : Option (List UInt8) :=
  if p.isEmpty || p.endsWith ['/'] || !w.isFit p then none else w.files.get? (w.locate p)

/-- Whether `p` names a file. -/
def isFile (w : World) (p : Text) : Bool := (w.bytes? p).isSome

/-- Whether `q` is `p` or lies below it. -/
def isAtOrBelow (p q : Text) : Bool := q = p || q.startsWith (p ++ ['/'])

/-- Whether there is a directory at a looked-up path: the root, the current directory, one that was
given, one that holds a file, or one above these. -/
def hasDirectoryAt (w : World) (q : Text) : Bool :=
  !q.isEmpty && (q = ['/'] ||
    (w.cwd :: w.directories ++ w.files.map fun f => Path.directory f.1).any (isAtOrBelow q))

/-- Whether `p` names a directory. -/
def isDirectory (w : World) (p : Text) : Bool :=
  !p.isEmpty && w.isFit p && w.hasDirectoryAt (w.locate p)

/-- What merging needs to know of the disk. -/
def view (w : World) : FileView := ⟨w.cwd, w.isFile⟩

/-- The bytes of a file that is opened for reading. A directory cannot be read, even where a file of
the same path was given. -/
def read (w : World) (p : Text) : Except OpenRefusal (List UInt8) :=
  match w.host.unfit? p with
  | some reason => .error (.unfit reason)
  | none =>
    if w.isDirectory p then .error (.system ⟨21, "Is a directory", some p⟩)
    else match w.bytes? p, w.host.denial? false p with
      | none, _ => .error (.system ⟨2, "No such file or directory", some p⟩)
      | some _, some e => .error (.system e)
      | some bytes, none => .ok bytes

/-- The place of a file that is opened for writing. There has to be a directory for it. -/
def openPlace? (w : World) (p : Text) : Except OpenRefusal Text :=
  match w.host.unfit? p with
  | some reason => .error (.unfit reason)
  | none =>
    if w.isDirectory p then .error (.system ⟨21, "Is a directory", some p⟩)
    else if p.isEmpty || !w.hasDirectoryAt (Path.directory (w.locate p)) then
      .error (.system ⟨2, "No such file or directory", some p⟩)
    else match w.host.denial? true p with
      | some e => .error (.system e)
      | none => .ok (w.locate p)

/-- The world after a text was written to the file at a place, and why not all of it was stored. What
the file held before is lost in any case. -/
def store (w : World) (place text : Text) : World × Option Text :=
  match w.host.spill? place text with
  | none =>
    ({ w with
        files := w.files.put place (Utf8.encode text)
        written := w.written.put place text }, none)
  | some spill =>
    let stored := (Utf8.encode text).take spill.kept
    ({ w with
        files := w.files.put place stored
        written := w.written.put place (Utf8.lossy stored) }, some spill.reason)

/-- Whether a program can be found. -/
def hasProgram (w : World) (name : Text) : Bool := w.isFit name && w.programs.contains name

/-- Runs a compiler: what the run does, and the world after it. There is no run if a word of the command
or the directory is unfit for the system. When no more runs are described a run prints nothing and
succeeds. -/
def run (w : World) (i : Invocation) : Except Text (Run × World) :=
  match (i.command ++ [i.directory]).findSome? w.host.unfit? with
  | some reason => .error reason
  | none =>
    match w.runs with
    | [] => .ok (.exited [] [] 0, { w with invocations := w.invocations ++ [i] })
    | r :: rest => .ok (r, { w with runs := rest, invocations := w.invocations ++ [i] })

end World

end IncludeTrace
