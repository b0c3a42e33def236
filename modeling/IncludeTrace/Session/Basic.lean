import IncludeTrace.Session.Stage

/-!
# Sessions

A **session** traces files into one graph, one at a time. While a trace is outstanding every further
request is turned down at once: it makes no call, changes nothing, and is answered as busy.

A trace either runs to its end before its request is answered (`Session.trace`), or it is left running
in the background (`Session.hold`) until it is waited for (`Session.release`) or the session is closed
(`Session.close`). Requests that arrive while a trace runs its compiler find the session busy.
-/

namespace IncludeTrace

/-- What a request is answered with. -/
structure TraceResult where
  root : Text
  verdict : Verdict
  deriving DecidableEq

namespace TraceResult

/-- Whether the whole transcript was merged. -/
def success (r : TraceResult) : Bool :=
  match r.verdict with
  | .merged _ => true
  | .failed _ _ => false

/-- The kind of the error. -/
def kind? (r : TraceResult) : Option ErrorKind :=
  match r.verdict with
  | .merged _ => none
  | .failed kind _ => some kind

/-- The reason of the failure. -/
def reason? (r : TraceResult) : Option Text :=
  match r.verdict with
  | .merged _ => none
  | .failed _ reason => some reason

/-- The statistics of the merge. -/
def stats? (r : TraceResult) : Option Merge.Stats :=
  match r.verdict with
  | .merged stats => some stats
  | .failed _ _ => none

/-- The answer to a request that is turned down. -/
def busy (path : Text) : TraceResult :=
  ⟨path, .failed .busy ("Can't trace '" ++ path ++ "' while another file is being compiled")⟩

end TraceResult

/-- A trace that was left running: its file and the flag to put back. -/
structure Held where
  path : Text
  before : Bool
  deriving DecidableEq

/-- A **session**: the graph, what the collaborators keep, and the outstanding trace. -/
structure Session (σ : Type) where
  graph : Graph
  outside : σ
  held : Option Held

/-- The answer to a request: a result, that the trace is left running, or that it was interrupted. -/
inductive Answer
  | result (r : TraceResult)
  | pending
  | interrupted
  deriving DecidableEq

/-- A session after a request, with the answers to it and to the requests made meanwhile. -/
structure Response (σ : Type) where
  session : Session σ
  answer : Answer
  meanwhile : List TraceResult
  log : List Entry

namespace Session

variable {σ : Type}

/-- A session that has traced nothing. -/
def new (graph : Graph) (outside : σ) : Session σ := ⟨graph, outside, none⟩

/-- Whether a trace is outstanding. -/
def busy (s : Session σ) : Bool := s.held.isSome

/-- What is said about a request that is turned down. -/
def busyEntry (path : Text) : Entry :=
  ⟨.error, ((TraceResult.busy path).reason?).getD []⟩

/-- The trace of a request, at its beginning. -/
def begin (s : Session σ) : Trace σ := ⟨.reading, s.graph, s.outside, []⟩

/-- The answer that an ended trace gives. -/
def answerOf (path : Text) (t : Trace σ) : Answer :=
  match t.ending with
  | .completed v => .result ⟨path, v⟩
  | .interrupted => .interrupted

/-- Turns down the requests that come in while the compiler runs. -/
def refuseMeanwhile (setup : Setup σ) (t : Trace σ) : Trace σ × List TraceResult :=
  if t.isRunning then
    let (paths, outside) := setup.collaborators.requests t.outside
    ({ t with outside := outside, log := t.log ++ paths.map busyEntry }, paths.map .busy)
  else (t, [])

/-- The response of a trace that goes on to its end. -/
def conclude (setup : Setup σ) (path : Text) (t : Trace σ) : Response σ :=
  let (t, meanwhile) := refuseMeanwhile setup t
  let t := t.advance setup path Trace.lastStep
  ⟨⟨t.graph, t.outside, none⟩, answerOf path t, meanwhile, t.log⟩

/-- The response to a request that is turned down. -/
def refuse (s : Session σ) (path : Text) : Response σ :=
  ⟨s, .result (.busy path), [], [busyEntry path]⟩

/-- **Traces** a file. -/
def trace (setup : Setup σ) (path : Text) (s : Session σ) : Response σ :=
  if s.busy then s.refuse path
  else conclude setup path (s.begin.advance setup path Trace.stepsToRun)

/-- Traces a file in the background and leaves it running once its compiler is started. -/
def hold (setup : Setup σ) (path : Text) (s : Session σ) : Response σ :=
  if s.busy then s.refuse path
  else
    let t := s.begin.advance setup path Trace.stepsToRun
    match t.stage with
    | .collecting before => ⟨⟨t.graph, t.outside, some ⟨path, before⟩⟩, .pending, [], t.log⟩
    | _ => conclude setup path t

/-- Waits for the outstanding trace, if there is one. -/
def release (setup : Setup σ) (s : Session σ) : Option (Response σ) :=
  s.held.map fun held =>
    conclude setup held.path ⟨.collecting held.before, s.graph, s.outside, []⟩

/-- **Closes** a session: the outstanding trace, if there is one, runs to its end, and nobody asks for
its result. A closed session can be used again. -/
def close (setup : Setup σ) (s : Session σ) : Session σ × List Entry :=
  match s.release setup with
  | some r => (r.session, r.log)
  | none => (s, [])

end Session

end IncludeTrace
