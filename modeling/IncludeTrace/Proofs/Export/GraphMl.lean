import IncludeTrace.Export.Standard
import IncludeTrace.Proofs.Export.XmlTrees

/-!
# GraphML documents

In a GraphML document an element has data under identifiers, and the document declares which identifier
is for which name (`GraphMl.value?`). So nodes and arcs are told by what is declared, whatever the
identifiers are, and documents are known to be written from such elements (`Library.WritesGraphMl`);
`Library.standard_writesGraphMl` says that the standard library writes them so.

Paths and labels stand between tags, where a carriage return is read as a line feed
(`GraphMl.nodes?_unified`). Names of nodes, orders and copies come through.
-/

namespace IncludeTrace

open Xml

variable {m : Multigraph} {n : Multigraph.Node} {a : Arc} {top v : Xml.Node} {name t : Text}

namespace GraphMl

/-! ### Reading a graph off a tree -/

/-- The text that an element gives for what the document declares under a name. -/
def value? (root v : Xml.Node) (name : Text) : Option Text := do
  let key ← root.child? "key" [("for", v.tag), ("attr.name", name)]
  let data ← v.child? "data" [("key", ← key.attribute? "id")]
  return data.text

/-- The node that an element describes. -/
def node? (root v : Xml.Node) : Option Multigraph.Node := do
  return ⟨← v.attribute? "id", ← value? root v "path", ← value? root v "label"⟩

/-- The arc that an element describes. -/
def arc? (root v : Xml.Node) : Option Arc := do
  return ⟨← v.attribute? "source", ← v.attribute? "target", ← nat? (← v.attribute? "id"),
    ← nat? (← value? root v "order")⟩

/-- The nodes of the graph in a document. -/
def nodes? (root : Xml.Node) : Option (List Multigraph.Node) := do
  ((← root.child? "graph" []).childrenOf "node").mapM (node? root)

/-- The arcs of the graph in a document. -/
def arcs? (root : Xml.Node) : Option (List Arc) := do
  ((← root.child? "graph" []).childrenOf "edge").mapM (arc? root)

/-- What a node is found as: its path and label stand between tags, where line ends are unified. -/
def found (n : Multigraph.Node) : Multigraph.Node := ⟨n.id, n.path.unifyLines, n.label.unifyLines⟩

/-- Declared values stand in texts. -/
theorem value?_unified (root v : Xml.Node) (name : Text) :
    value? root.unified v.unified name = (value? root v name).map Text.unifyLines := by
  simp only [value?, Xml.Node.child?_unified, Xml.Node.tag_unified, Option.bind_eq_bind,
    Option.bind_map, Option.map_bind, Function.comp_def, Xml.Node.attribute?_unified,
    Xml.Node.text_unified, Option.pure_def, Option.map_some]

theorem node?_unified (h : node? top v = some n) :
    node? top.unified v.unified = some (found n) := by
  simp only [node?, Option.bind_eq_bind, Option.bind_eq_some_iff] at h
  obtain ⟨id, hid, path, hpath, label, hlabel, hn⟩ := h
  obtain rfl := Option.some.inj hn
  simp only [node?, value?_unified, Xml.Node.attribute?_unified, hid, hpath, hlabel, Option.map_some,
    Option.bind_eq_bind, Option.bind_some]
  rfl

theorem arc?_unified (h : arc? top v = some a) : arc? top.unified v.unified = some a := by
  simp only [arc?, Option.bind_eq_bind, Option.bind_eq_some_iff] at h
  obtain ⟨source, hsource, target, htarget, number, hnumber, copy, hcopy, text, htext, order, horder,
    ha⟩ := h
  obtain rfl := Option.some.inj ha
  simp only [arc?, value?_unified, Xml.Node.attribute?_unified, hsource, htarget, hnumber, hcopy, htext,
    Option.map_some, Option.bind_eq_bind, Option.bind_some, nat?_unifyLines horder]
  rfl

/-- **Where line ends are unified, those of paths and labels are.** -/
theorem nodes?_unified {ns : List Multigraph.Node} (h : nodes? top = some ns) :
    nodes? top.unified = some (ns.map found) := by
  obtain ⟨v, hv, hnodes⟩ := Option.bind_eq_some_iff.mp h
  simp only [nodes?, Xml.Node.child?_unified, hv, Option.map_some, Option.bind_eq_bind,
    Option.bind_some, Xml.Node.childrenOf_unified]
  exact mapM_unified found (fun _ _ => node?_unified) hnodes

theorem arcs?_unified {as : List Arc} (h : arcs? top = some as) : arcs? top.unified = some as := by
  obtain ⟨v, hv, harcs⟩ := Option.bind_eq_some_iff.mp h
  simp only [arcs?, Xml.Node.child?_unified, hv, Option.map_some, Option.bind_eq_bind,
    Option.bind_some, Xml.Node.childrenOf_unified]
  exact mapM_unified_of_same (fun _ _ => arc?_unified) harcs

theorem allowed_value (hv : v.Clean) (h : value? top v name = some t) : Allowed t := by
  simp only [value?, Option.bind_eq_bind, Option.bind_eq_some_iff] at h
  obtain ⟨key, -, id, -, data, hdata, ht⟩ := h
  obtain rfl := Option.some.inj ht
  exact (hv.child hdata).allowed_text

/-- What is told by a clean tree is allowed. -/
theorem allowed_of_nodes? {ns : List Multigraph.Node} (htop : top.Clean) (h : nodes? top = some ns) :
    ∀ n ∈ ns, n.Allowed := by
  obtain ⟨graph, hgraph, hnodes⟩ := Option.bind_eq_some_iff.mp h
  refine forall_mem_of_mapM (fun v hv n hn => ?_) hnodes
  have hclean := (htop.child hgraph).childrenOf v hv
  simp only [node?, Option.bind_eq_bind, Option.bind_eq_some_iff] at hn
  obtain ⟨id, hid, path, hpath, label, hlabel, hn⟩ := hn
  obtain rfl := Option.some.inj hn
  exact ⟨hclean.allowed_attribute hid, allowed_value hclean hpath, allowed_value hclean hlabel⟩

end GraphMl

/-- What is known of **GraphML documents**: they are written from elements that tell the multigraph. -/
def Library.WritesGraphMl (library : Library) : Prop :=
  ∀ m text, m.WellFormed → library.graphMl m = .opened text none →
    ∃ e, text = Xml.document e ∧ Tells GraphMl.nodes? GraphMl.arcs? m e

namespace GraphMl

/-! ### The standard library -/

theorem node?_node (h : n ∈ m.nodes) : node? ((root m).node 0) ((node n).node 2) = some n := by
  have hnodes : m.nodes.isEmpty = false := List.isEmpty_eq_false_iff.mpr (List.ne_nil_of_mem h)
  have hpath : value? ((root m).node 0) ((node n).node 2) "path" = some n.path := by
    rw [root, declarations, hnodes]
    cases m.groupedArcs.isEmpty <;> rfl
  have hlabel : value? ((root m).node 0) ((node n).node 2) "label" = some n.label := by
    rw [root, declarations, hnodes]
    cases m.groupedArcs.isEmpty <;> rfl
  have hid : ((node n).node 2).attribute? "id" = some n.id := rfl
  rw [node?, hid, hpath, hlabel]
  rfl

theorem arc?_edge (h : a ∈ m.groupedArcs) : arc? ((root m).node 0) ((edge a).node 2) = some a := by
  have harcs : m.groupedArcs.isEmpty = false := List.isEmpty_eq_false_iff.mpr (List.ne_nil_of_mem h)
  have horder : value? ((root m).node 0) ((edge a).node 2) "order" = some (Text.ofNat a.order) := by
    rw [root, declarations, harcs]
    rfl
  have hsource : ((edge a).node 2).attribute? "source" = some a.source := rfl
  have htarget : ((edge a).node 2).attribute? "target" = some a.target := rfl
  have hid : ((edge a).node 2).attribute? "id" = some (Text.ofNat a.copy) := rfl
  rw [arc?, hsource, htarget, hid, horder]
  simp only [Option.bind_eq_bind, Option.bind_some, nat?_ofNat]
  rfl

/-- What the document has for the graph. -/
theorem child?_graph (m : Multigraph) : ∃ v, ((root m).node 0).child? "graph" [] = some v ∧
    v.childrenOf "node" = m.nodes.map (fun n => (node n).node 2) ∧
    v.childrenOf "edge" = m.groupedArcs.map (fun a => (edge a).node 2) := by
  have hnode : ∀ n, ((node n).node 2).tag = "node" := fun _ => rfl
  have hedge : ∀ a : Arc, ((edge a).node 2).tag = "edge" := fun _ => rfl
  have hne : ("edge".toList : Text) ≠ "node" := by decide
  refine ⟨(Element.branch "graph" [("edgedefault", "directed")]
    (m.nodes.map node ++ m.groupedArcs.map edge)).node 1, ?_, ?_, ?_⟩
  · rw [root, declarations]
    cases m.groupedArcs.isEmpty <;> cases m.nodes.isEmpty <;> rfl
  · simp [Xml.Node.childrenOf, children_node, List.filter_map, Function.comp_def, hnode, hedge]
  · simp [Xml.Node.childrenOf, children_node, List.filter_map, Function.comp_def, hnode, hedge]

theorem nodes?_root (m : Multigraph) : nodes? ((root m).node 0) = some m.nodes := by
  obtain ⟨v, hv, hnodes, -⟩ := child?_graph m
  rw [nodes?, hv, Option.bind_eq_bind, Option.bind_some, hnodes]
  exact mapM_map_self fun n hn => node?_node hn

theorem arcs?_root (m : Multigraph) : arcs? ((root m).node 0) = some m.groupedArcs := by
  obtain ⟨v, hv, -, harcs⟩ := child?_graph m
  rw [arcs?, hv, Option.bind_eq_bind, Option.bind_some, harcs]
  exact mapM_map_self fun a ha => arc?_edge ha

theorem readable_datum (key value : Text) : Readable (datum key value) :=
  .leaf rfl (show AreNames ["key".toList] by decide)

theorem readable_root (m : Multigraph) : Readable (root m) := by
  have hdeclaration : ∀ id owner name type, Readable (declaration id owner name type) :=
    fun _ _ _ _ => .leaf rfl
      (show AreNames ["id".toList, "for".toList, "attr.name".toList, "attr.type".toList] by decide)
  have hnode : ∀ n, Readable (node n) := by
    intro n
    refine .branch rfl (show AreNames ["id".toList] by decide) ?_
    simp only [List.forall_mem_cons]
    exact ⟨readable_datum _ _, readable_datum _ _, List.forall_mem_nil _⟩
  have hedge : ∀ a, Readable (edge a) := by
    intro a
    refine .branch rfl
      (show AreNames ["source".toList, "target".toList, "id".toList] by decide) ?_
    exact List.forall_mem_singleton.mpr (readable_datum _ _)
  refine .branch rfl (show AreNames ["xmlns".toList, "xmlns:xsi".toList,
    "xsi:schemaLocation".toList] by decide) ?_
  simp only [List.forall_mem_append, List.forall_mem_singleton]
  refine ⟨?_, .branch rfl (show AreNames ["edgedefault".toList] by decide) ?_⟩
  · rw [declarations, List.forall_mem_append]
    constructor <;> split <;> simp [hdeclaration]
  · rw [List.forall_mem_append, List.forall_mem_map, List.forall_mem_map]
    exact ⟨fun n _ => hnode n, fun a _ => hedge a⟩

/-- The document carries nothing that is not allowed but what the nodes carry. -/
theorem allowed_content (h : m.WellFormed) (hall : ∀ n ∈ m.nodes, n.Allowed) :
    Allowed (root m).content := by
  have hnode : ∀ n, Allowed (node n).content ↔ n.Allowed := by
    intro n
    simp [node, datum, Element.content, contents, isChar, Multigraph.Node.Allowed]
  have hedge : ∀ a, Allowed (edge a).content ↔ Allowed a.source ∧ Allowed a.target := by
    intro a
    simp [edge, datum, Element.content, contents, allowed_ofNat, isChar]
  have hdeclarations : Allowed (contents (declarations m)) := by
    rw [declarations]
    cases m.groupedArcs.isEmpty <;> cases m.nodes.isEmpty <;> decide +kernel
  rw [root, Element.content, allowed_append, contents_append, allowed_append]
  refine ⟨by decide +kernel, hdeclarations, ?_⟩
  simp only [Element.content, contents, contents_append, allowed_append, allowed_contents_map, allowed_nil,
    and_true]
  exact ⟨by decide +kernel, fun n hn => (hnode n).mpr (hall n hn),
    fun a ha => (hedge a).mpr (Multigraph.allowed_of_mem_groupedArcs h hall ha)⟩

end GraphMl

/-- The standard library writes GraphML documents. -/
theorem Library.standard_writesGraphMl : Library.standard.WritesGraphMl := by
  intro m text hm h
  exact ⟨GraphMl.root m, (Course.opened.inj h).1.symm, GraphMl.readable_root m, GraphMl.nodes?_root m,
    ⟨_, m.groupedArcs_perm hm, GraphMl.arcs?_root m⟩, GraphMl.allowed_content hm⟩

end IncludeTrace
