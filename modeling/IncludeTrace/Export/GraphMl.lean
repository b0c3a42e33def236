import IncludeTrace.Export.Xml
import IncludeTrace.Graph.Multigraph

/-!
# GraphML

A multigraph as a GraphML document: a node with its path and label, an edge for every arc with its
order. Only the keys that are in use are declared.
-/

namespace IncludeTrace.GraphMl

open Xml

/-- The declaration of a key. -/
def declaration (id owner name type : Text) : Element :=
  .leaf "key" [("id", id), ("for", owner), ("attr.name", name), ("attr.type", type)] []

/-- The value of a key. -/
def datum (key value : Text) : Element := .leaf "data" [("key", key)] value

/-- The element of a node. -/
def node (n : Multigraph.Node) : Element :=
  .branch "node" [("id", n.id)] [datum "d0" n.path, datum "d1" n.label]

/-- The element of an arc. -/
def edge (a : Arc) : Element :=
  .branch "edge" [("source", a.source), ("target", a.target), ("id", Text.ofNat a.copy)]
    [datum "d2" (Text.ofNat a.order)]

/-- The declarations a multigraph needs. -/
def declarations (m : Multigraph) : List Element :=
  (if m.groupedArcs.isEmpty then [] else [declaration "d2" "edge" "order" "long"]) ++
    if m.nodes.isEmpty then []
    else [declaration "d1" "node" "label" "string", declaration "d0" "node" "path" "string"]

/-- The element at the root of the document. -/
def root (m : Multigraph) : Element :=
  .branch "graphml"
    [("xmlns", "http://graphml.graphdrawing.org/xmlns"),
      ("xmlns:xsi", "http://www.w3.org/2001/XMLSchema-instance"),
      ("xsi:schemaLocation", "http://graphml.graphdrawing.org/xmlns " ++
        "http://graphml.graphdrawing.org/xmlns/1.0/graphml.xsd")]
    (declarations m ++
      [.branch "graph" [("edgedefault", "directed")] (m.nodes.map node ++ m.groupedArcs.map edge)])

/-- The multigraph as a GraphML document. -/
def document (m : Multigraph) : Text := Xml.document (root m)

end IncludeTrace.GraphMl
