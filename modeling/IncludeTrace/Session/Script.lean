import IncludeTrace.Session.Collaborators
import IncludeTrace.Table

/-!
# Scripted collaborators

Collaborators that answer from a **script**: what compilers print for each file, the search
directories, the flags, and which calls fail for which reason. Every call is written down before
anything else happens. The script may also hold requests that are made while the next compiler runs.
-/

namespace IncludeTrace

/-- What scripted collaborators answer, and the calls made so far. -/
structure Script where
  outputs : Table Text
  directories : List Text
  flags : Table Bool
  failures : Table Text
  waiting : List Text
  calls : List (Text × Text)

namespace Script

/-- The script after a call was written down. -/
def record (s : Script) (call path : Text) : Script := { s with calls := s.calls ++ [(call, path)] }

/-- Writes a call down and replies, unless the script says that it fails. -/
def reply {α : Type} (call path : Text) (s : Script) (answer : Script → Outcome Text α × Script) :
    Reply Script α :=
  let s := s.record call path
  match s.failures.get? call with
  | some reason => ⟨.failure reason, s, []⟩
  | none =>
    let (outcome, s) := answer s
    ⟨outcome, s, []⟩

/-- What a compiler prints for a file. -/
def output (path : Text) (s : Script) : Outcome Text Text :=
  match s.outputs.get? path with
  | some text => .value text
  | none => .failure ("no output for " ++ path)

/-- The **scripted collaborators**. -/
def collaborators : Collaborators Script where
  flag path s := reply "get" path s fun s => (.value ((s.flags.get? path).getD false), s)
  setFlag path on s :=
    reply (if on then "enable" else "disable") path s fun s =>
      (.value (), { s with flags := s.flags.put path on })
  start path s := reply "run" path s fun s => (.value (), s)
  collect path s := ⟨output path s, s, []⟩
  directories path s := reply "dirs" path s fun s => (.value s.directories, s)
  requests s := (s.waiting, { s with waiting := [] })

end Script

end IncludeTrace
