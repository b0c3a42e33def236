import IncludeTrace.Export.Dot
import IncludeTrace.Export.Gexf
import IncludeTrace.Export.GraphMl
import IncludeTrace.Export.Library
import IncludeTrace.Export.NodeLink

/-!
# The standard library of formats

The library that the program is run with. It opens every file at once, also that of a DOT document whose
writer is missing, and fails in no other case.
-/

namespace IncludeTrace

/-- The **standard library** of formats. -/
def Library.standard : Library where
  graphMl m := .opened (GraphMl.document m) none
  gexf date m := .opened (Gexf.document date m) none
  dot installed m := if installed then .opened (Dot.document m) none else .opened [] (some .missing)
  nodeLink m := .ok (NodeLink.value "edges" m)
  edgesName := "edges"

end IncludeTrace
