import IncludeTrace.Graph.Multigraph
import IncludeTrace.Json.Basic

/-!
# Node-link values

A multigraph as a JSON object that lists its nodes, with their paths and labels, and its edges, with
their orders and copies.
-/

namespace IncludeTrace.NodeLink

/-- The value of a node. -/
def node (n : Multigraph.Node) : Json :=
  .object [("path", .text n.path), ("label", .text n.label), ("id", .text n.id)]

/-- The value of an arc. -/
def edge (a : Arc) : Json :=
  .object [("order", .nat a.order), ("source", .text a.source), ("target", .text a.target),
    ("key", .nat a.copy)]

/-- The multigraph as a JSON value, with a name for the member that lists the edges. -/
def value (edgesName : Text) (m : Multigraph) : Json :=
  .object [("directed", .bool true), ("multigraph", .bool true), ("graph", .object []),
    ("nodes", .list (m.nodes.map node)), (edgesName, .list (m.groupedArcs.map edge))]

end IncludeTrace.NodeLink
