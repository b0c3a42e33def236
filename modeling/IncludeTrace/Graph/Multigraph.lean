import IncludeTrace.Graph.Basic

/-!
# Multigraphs

An include graph in the form in which it is handed to a library of formats: **nodes** with a path and a
label, and **edges** with a place in the include list of their source. Both stand in the order in which
they were added.

Edges with the same ends are **parallel**. They are told apart by numbers, from 0 in the order in which
they were added; an edge with its number is an **arc**. The arcs of an include graph are listed in
groups: by source in the order of the nodes, and under a source by target in the order in which the
targets were first included.
-/

namespace IncludeTrace

/-- One include: the `order`-th of its source, and the `copy`-th of those with the same target. -/
structure Arc where
  source : Text
  target : Text
  copy : Nat
  order : Nat
  deriving DecidableEq

/-- Each text once, in the order of first occurrence. -/
def distinct : List Text → List Text
  | [] => []
  | t :: rest => t :: (distinct rest).filter (· ≠ t)

/-- A node with its values. -/
structure Multigraph.Node where
  id : Text
  path : Text
  label : Text
  deriving DecidableEq

/-- An edge with its value. -/
structure Multigraph.Edge where
  source : Text
  target : Text
  order : Nat
  deriving DecidableEq

/-- Nodes and edges in the order in which they were added. -/
structure Multigraph where
  nodes : List Multigraph.Node
  edges : List Multigraph.Edge
  deriving DecidableEq

namespace Multigraph

/-- Whether two edges have the same ends. -/
def Edge.isParallel (e f : Edge) : Bool := e.source = f.source && e.target = f.target

/-- Edges with their numbers, where the edges in `before` were added in front of them. -/
def numberFrom (before : List Edge) : List Edge → List Arc
  | [] => []
  | e :: rest =>
    ⟨e.source, e.target, before.countP e.isParallel, e.order⟩ :: numberFrom (e :: before) rest

/-- The **arcs** of a multigraph, in the order in which the edges were added. -/
def arcs (m : Multigraph) : List Arc := numberFrom [] m.edges

/-- Arcs with one source, in groups by target. -/
def byTarget (arcs : List Arc) : List Arc :=
  (distinct (arcs.map Arc.target)).flatMap fun target => arcs.filter fun a => a.target = target

/-- The arcs in groups by source, and under a source by target. -/
def groupedArcs (m : Multigraph) : List Arc :=
  m.nodes.flatMap fun n => byTarget (m.arcs.filter fun a => a.source = n.id)

end Multigraph

/-- The node of an item. -/
def Item.node (i : Item) : Multigraph.Node := ⟨i.key, i.path, i.label⟩

/-- The edges of an item, one for every include. -/
def Item.edges (i : Item) : List Multigraph.Edge :=
  i.includes.zipIdx.map fun place => ⟨i.key, place.1, place.2⟩

namespace Graph

/-- The graph as a **multigraph**. -/
def multigraph (g : Graph) : Multigraph := ⟨g.items.map Item.node, g.items.flatMap Item.edges⟩

/-- The **arcs** of a graph. -/
def arcs (g : Graph) : List Arc := g.multigraph.groupedArcs

/-- What is said when a graph is made a multigraph. -/
def multigraphLog (g : Graph) : Entry :=
  ⟨.debug, "Built graph with " ++ Text.ofNat g.multigraph.nodes.length ++ " nodes and " ++
    Text.ofNat g.multigraph.edges.length ++ " edges"⟩

end Graph

end IncludeTrace
