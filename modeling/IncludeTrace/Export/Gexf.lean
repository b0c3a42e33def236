import IncludeTrace.Export.Xml
import IncludeTrace.Graph.Multigraph

/-!
# GEXF

A multigraph as a GEXF document: a node with its label and its path as a value, and an edge for every
arc, numbered through, with its order and copy as values. The document carries the date it was written
on.
-/

namespace IncludeTrace.Gexf

open Xml

/-- The declaration of a value. -/
def declaration (id title type : Text) : Element :=
  .leaf "attribute" [("id", id), ("title", title), ("type", type)] []

/-- Declarations for one kind of element. -/
def declarations (kind : Text) (values : List Element) : Element :=
  .branch "attributes" [("mode", "static"), ("class", kind)] values

/-- A value. -/
def value (id v : Text) : Element := .leaf "attvalue" [("for", id), ("value", v)] []

/-- The element of a node. -/
def node (n : Multigraph.Node) : Element :=
  .branch "node" [("id", n.id), ("label", n.label)] [.branch "attvalues" [] [value "0" n.path]]

/-- The element of an arc, with its number. -/
def edge (numbered : Arc × Nat) : Element :=
  let (a, number) := numbered
  .branch "edge" [("source", a.source), ("target", a.target), ("id", Text.ofNat number)]
    [.branch "attvalues" [] [value "1" (Text.ofNat a.order), value "2" (Text.ofNat a.copy)]]

/-- What a multigraph consists of: the declarations in use, the nodes and the edges. -/
def parts (m : Multigraph) : List Element :=
  (if m.groupedArcs.isEmpty then [] else
    [declarations "edge" [declaration "1" "order" "long", declaration "2" "networkx_key" "long"]]) ++
  (if m.nodes.isEmpty then [] else [declarations "node" [declaration "0" "path" "string"]]) ++
  [.branch "nodes" [] (m.nodes.map node), .branch "edges" [] (m.groupedArcs.zipIdx.map edge)]

/-- The element at the root of the document. -/
def root (date : Text) (m : Multigraph) : Element :=
  .branch "gexf"
    [("xmlns", "http://www.gexf.net/1.2draft"),
      ("xmlns:xsi", "http://www.w3.org/2001/XMLSchema-instance"),
      ("xsi:schemaLocation", "http://www.gexf.net/1.2draft http://www.gexf.net/1.2draft/gexf.xsd"),
      ("version", "1.2")]
    [.branch "meta" [("lastmodifieddate", date)] [.leaf "creator" [] "NetworkX 3.6.1"],
      .branch "graph" [("defaultedgetype", "directed"), ("mode", "static"), ("name", "")] (parts m)]

/-- The multigraph as a GEXF document. -/
def document (date : Text) (m : Multigraph) : Text := Xml.document (root date m)

end IncludeTrace.Gexf
