import IncludeTrace.Session.Collaborators
import IncludeTrace.Transcript.Merge

/-!
# The stages of a trace

A trace goes through **stages**, one call to a collaborator each: read the flag, switch it on, run the
compiler, ask for the search directories, merge what the compiler printed, and put the flag back. Once
the flag was read, every way to go on leads through putting it back; a failure there changes nothing
about how the trace ended.

`Trace.step` takes a trace from one stage to the next, `Trace.advance` several stages further. Seven
steps end every trace, and an ended trace stays as it is.
-/

namespace IncludeTrace

/-- Why a trace did not merge anything, or not all of a transcript. -/
inductive ErrorKind
  | busy
  | precondition
  | malformed
  deriving DecidableEq

/-- The name of a kind of error. -/
def ErrorKind.name : ErrorKind → Text
  | busy => "resource-busy"
  | precondition => "precondition-failure"
  | malformed => "malformed-trace"

/-- What came of a trace that was not interrupted. -/
inductive Verdict
  | merged (stats : Merge.Stats)
  | failed (kind : ErrorKind) (reason : Text)
  deriving DecidableEq

/-- How a trace ended. -/
inductive Ending
  | completed (v : Verdict)
  | interrupted
  deriving DecidableEq

/-- Where a trace stands; `before` is the flag that is to be put back. -/
inductive Stage
  | reading
  | enabling (before : Bool)
  | starting (before : Bool)
  | collecting (before : Bool)
  | locating (before : Bool) (output : Text)
  | merging (before : Bool) (output : Text) (directories : List Text)
  | restoring (before : Bool) (ending : Ending)
  | finished (ending : Ending)
  deriving DecidableEq

/-- A trace and all it works on. -/
structure Trace (σ : Type) where
  stage : Stage
  graph : Graph
  outside : σ
  log : List Entry

/-- What stays the same during all traces of a session. -/
structure Setup (σ : Type) where
  collaborators : Collaborators σ
  view : FileView
  marker : Text

namespace Trace

variable {σ : Type}

/-- What is said when the flag cannot be read. -/
def flagEntry (path reason : Text) : Entry :=
  ⟨.error, "Can't compile '" ++ path ++ "' with show includes: " ++ reason⟩

/-- What is said when there is nothing to merge. -/
def outputEntry (path reason : Text) : Entry :=
  ⟨.error, "Can't extract include graph of '" ++ path ++ "': " ++ reason⟩

/-- What is said when the flag cannot be put back. -/
def restoreEntry (path reason : Text) : Entry :=
  ⟨.warning, "Failed to restore show-includes setting for '" ++ path ++ "': " ++ reason⟩

/-- What is said when a transcript was merged. -/
def mergedEntry (path : Text) (stats : Merge.Stats) : Entry :=
  ⟨.info, "Traced " ++ path ++ ": " ++ Text.ofNat stats.edgesAdded ++
    " includes merged (max depth " ++ Text.ofNat stats.maxDepth ++ ")"⟩

/-- The stage after a call made while the flag is switched on, with what is said. -/
def proceed {α : Type} (path : Text) (before : Bool) (next : α → Stage) :
    Outcome Text α → Stage × List Entry
  | .value a => (next a, [])
  | .failure reason =>
    (.restoring before (.completed (.failed .precondition reason)), [outputEntry path reason])
  | .interrupted => (.restoring before .interrupted, [])

/-- The trace after a reply that leads to a stage. -/
def reply {α : Type} (t : Trace σ) (r : Reply σ α) (next : Stage × List Entry) : Trace σ :=
  { t with stage := next.1, outside := r.state, log := t.log ++ r.log ++ next.2 }

/-- One **step** of the trace of a file. -/
def step (s : Setup σ) (path : Text) (t : Trace σ) : Trace σ :=
  match t.stage with
  | .reading =>
    let r := s.collaborators.flag path t.outside
    t.reply r <| match r.outcome with
      | .value before => (.enabling before, [])
      | .failure reason =>
        (.finished (.completed (.failed .precondition reason)), [flagEntry path reason])
      | .interrupted => (.finished .interrupted, [])
  | .enabling before =>
    let r := s.collaborators.setFlag path true t.outside
    t.reply r (proceed path before (fun _ => .starting before) r.outcome)
  | .starting before =>
    let r := s.collaborators.start path t.outside
    t.reply r (proceed path before (fun _ => .collecting before) r.outcome)
  | .collecting before =>
    let r := s.collaborators.collect path t.outside
    t.reply r (proceed path before (.locating before) r.outcome)
  | .locating before output =>
    let r := s.collaborators.directories path t.outside
    t.reply r (proceed path before (.merging before output) r.outcome)
  | .merging before output directories =>
    let m := t.graph.merge s.view path directories s.marker output
    let (verdict, entry) := match m.verdict with
      | .ok stats => (Verdict.merged stats, mergedEntry path stats)
      | .error fault => (Verdict.failed .malformed fault.message, fault.entry path)
    { t with
      stage := .restoring before (.completed verdict)
      graph := m.graph
      log := t.log ++ m.log ++ [entry] }
  | .restoring before ending =>
    let r := s.collaborators.setFlag path before t.outside
    t.reply r <| match r.outcome with
      | .value _ => (.finished ending, [])
      | .failure reason => (.finished ending, [restoreEntry path reason])
      | .interrupted => (.finished .interrupted, [])
  | .finished _ => t

/-- A number of steps. -/
def advance (s : Setup σ) (path : Text) : Nat → Trace σ → Trace σ
  | 0, t => t
  | n + 1, t => advance s path n (t.step s path)

/-- The steps that end every trace. -/
def lastStep : Nat := 7

/-- The steps after which the compiler runs, unless the trace goes another way. -/
def stepsToRun : Nat := 3

/-- Whether the compiler was started and its output is still to be collected. -/
def isRunning (t : Trace σ) : Bool :=
  match t.stage with
  | .collecting _ => true
  | _ => false

/-- How a trace ended; one that has not ended counts as interrupted. -/
def ending (t : Trace σ) : Ending :=
  match t.stage with
  | .finished e => e
  | _ => .interrupted

end Trace

end IncludeTrace
