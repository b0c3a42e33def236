import IncludeTrace.Database.Basic
import IncludeTrace.Session.Basic

/-!
# Tracing with a database

An open database together with the world it runs compilers in serves as the collaborators of a
session. Its compiler runs end before they are answered, so starting one does nothing yet and
collecting the output is the run. No requests come in meanwhile.
-/

namespace IncludeTrace

/-- An open database and the world around it. -/
structure Workshop where
  database : Database
  world : World

namespace Workshop

/-- The reply to a question that changes nothing. -/
def answer {α : Type} (w : Workshop) (result : Except Database.Fault α) : Reply Workshop α :=
  ⟨(Outcome.ofExcept result).mapFailure Database.Fault.message, w, []⟩

/-- The **collaborators** that a database makes. -/
def collaborators : Collaborators Workshop where
  flag path w := w.answer (w.database.flag w.world.cwd path)
  setFlag path on w :=
    match w.database.setFlag w.world.cwd path on with
    | .ok database => ⟨.value (), { w with database := database }, []⟩
    | .error f => ⟨.failure f.message, w, []⟩
  start _ w := ⟨.value (), w, []⟩
  collect path w :=
    let r := w.database.run w.world path
    ⟨r.outcome.mapFailure Database.Fault.message, { w with world := r.world }, r.log⟩
  directories path w := w.answer (w.database.directories w.world.cwd path)
  requests w := ([], w)

/-- What traces of a database need. -/
def setup (view : FileView) (marker : Text) : Setup Workshop := ⟨collaborators, view, marker⟩

end Workshop

end IncludeTrace
