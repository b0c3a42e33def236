import IncludeTrace.Graph.Multigraph
import IncludeTrace.Json.Basic

/-!
# Libraries of formats

A **library** turns multigraphs into documents. For most formats it is given the file as well and writes
it itself, so that it is up to the library when the file is opened. What it does then is a **course**:
it opens the file, and writes a text to it; before or behind that it may fail. For node-link documents
the library only makes the value.

A library is a parameter of everything that exports: it is no part of the program, and what holds of an
export holds under what is known of the library. There may be one writer that is not always installed,
the one for DOT.
-/

namespace IncludeTrace

/-- Why a graph is not exported: something that is needed is not installed, or any other reason. -/
inductive Failure
  | missing
  | other (reason : Text)
  deriving DecidableEq

/-- What is done to the file of an export. It may stay closed because of a failure, or it is opened and
a text is written to it; a failure may come behind that. -/
inductive Course
  | closed (f : Failure)
  | opened (text : Text) (f : Option Failure)
  deriving DecidableEq

/-- A **library** of formats. -/
structure Library where
  /-- Writes a GraphML document. -/
  graphMl : Multigraph → Course
  /-- Writes a GEXF document on a date. -/
  gexf : (date : Text) → Multigraph → Course
  /-- Writes a DOT document, where the writer for it may be installed or not. -/
  dot : (installed : Bool) → Multigraph → Course
  /-- The value of a node-link document. -/
  nodeLink : Multigraph → Except Failure Json
  /-- The member of such a value that lists the edges; it has not always been the same. -/
  edgesName : Text

end IncludeTrace
