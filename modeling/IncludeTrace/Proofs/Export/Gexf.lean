import IncludeTrace.Export.Standard
import IncludeTrace.Proofs.Export.XmlTrees

/-!
# GEXF documents

In a GEXF document an element has values for identifiers, and the graph declares which identifier is for
which name (`Gexf.value?`). Documents are known to be written from elements that tell nodes and arcs in
this way (`Library.WritesGexf`); `Library.standard_writesGexf` says that the standard library writes
them so. All of it stands in attributes, so unified line ends change nothing (`Gexf.nodes?_unified`).
-/

namespace IncludeTrace

open Xml

variable {m : Multigraph} {n : Multigraph.Node} {a : Arc} {top v : Xml.Node} {name t : Text}

namespace Gexf

/-! ### Reading a graph off a tree -/

/-- The text that an element gives for what the graph declares under a name. -/
def value? (graph v : Xml.Node) (name : Text) : Option Text := do
  let declarations ← graph.child? "attributes" [("class", v.tag)]
  let declaration ← declarations.child? "attribute" [("title", name)]
  let values ← v.child? "attvalues" []
  let value ← values.child? "attvalue" [("for", ← declaration.attribute? "id")]
  value.attribute? "value"

/-- The node that an element describes. -/
def node? (graph v : Xml.Node) : Option Multigraph.Node := do
  return ⟨← v.attribute? "id", ← value? graph v "path", ← v.attribute? "label"⟩

/-- The arc that an element describes. -/
def arc? (graph v : Xml.Node) : Option Arc := do
  return ⟨← v.attribute? "source", ← v.attribute? "target", ← nat? (← value? graph v "networkx_key"),
    ← nat? (← value? graph v "order")⟩

/-- The nodes of the graph in a document. -/
def nodes? (root : Xml.Node) : Option (List Multigraph.Node) := do
  let graph ← root.child? "graph" []
  ((← graph.child? "nodes" []).childrenOf "node").mapM (node? graph)

/-- The arcs of the graph in a document. -/
def arcs? (root : Xml.Node) : Option (List Arc) := do
  let graph ← root.child? "graph" []
  ((← graph.child? "edges" []).childrenOf "edge").mapM (arc? graph)

/-- Declared values stand in attributes. -/
theorem value?_unified (graph v : Xml.Node) (name : Text) :
    value? graph.unified v.unified name = value? graph v name := by
  simp only [value?, Xml.Node.child?_unified, Xml.Node.tag_unified, Option.bind_eq_bind,
    Option.bind_map, Function.comp_def, Xml.Node.attribute?_unified]

theorem node?_unified (graph v : Xml.Node) : node? graph.unified v.unified = node? graph v := by
  simp only [node?, value?_unified, Xml.Node.attribute?_unified]

theorem arc?_unified (graph v : Xml.Node) : arc? graph.unified v.unified = arc? graph v := by
  simp only [arc?, value?_unified, Xml.Node.attribute?_unified]

/-- **Where line ends are unified, nodes stay.** -/
theorem nodes?_unified {ns : List Multigraph.Node} (h : nodes? top = some ns) :
    nodes? top.unified = some ns := by
  obtain ⟨graph, hgraph, h⟩ := Option.bind_eq_some_iff.mp h
  obtain ⟨v, hv, hnodes⟩ := Option.bind_eq_some_iff.mp h
  simp only [nodes?, Xml.Node.child?_unified, hgraph, hv, Option.map_some, Option.bind_eq_bind,
    Option.bind_some, Xml.Node.childrenOf_unified]
  exact mapM_unified_of_same (fun v n hn => (node?_unified graph v).trans hn) hnodes

theorem arcs?_unified {as : List Arc} (h : arcs? top = some as) : arcs? top.unified = some as := by
  obtain ⟨graph, hgraph, h⟩ := Option.bind_eq_some_iff.mp h
  obtain ⟨v, hv, harcs⟩ := Option.bind_eq_some_iff.mp h
  simp only [arcs?, Xml.Node.child?_unified, hgraph, hv, Option.map_some, Option.bind_eq_bind,
    Option.bind_some, Xml.Node.childrenOf_unified]
  exact mapM_unified_of_same (fun v a ha => (arc?_unified graph v).trans ha) harcs

theorem allowed_value (hv : v.Clean) (h : value? top v name = some t) : Allowed t := by
  simp only [value?, Option.bind_eq_bind, Option.bind_eq_some_iff] at h
  obtain ⟨declarations, -, declaration, -, values, hvalues, id, -, value, hvalue, ht⟩ := h
  exact ((hv.child hvalues).child hvalue).allowed_attribute ht

/-- What is told by a clean tree is allowed. -/
theorem allowed_of_nodes? {ns : List Multigraph.Node} (htop : top.Clean) (h : nodes? top = some ns) :
    ∀ n ∈ ns, n.Allowed := by
  obtain ⟨graph, hgraph, h⟩ := Option.bind_eq_some_iff.mp h
  obtain ⟨list, hlist, hnodes⟩ := Option.bind_eq_some_iff.mp h
  refine forall_mem_of_mapM (fun v hv n hn => ?_) hnodes
  have hclean := ((htop.child hgraph).child hlist).childrenOf v hv
  simp only [node?, Option.bind_eq_bind, Option.bind_eq_some_iff] at hn
  obtain ⟨id, hid, path, hpath, label, hlabel, hn⟩ := hn
  obtain rfl := Option.some.inj hn
  exact ⟨hclean.allowed_attribute hid, allowed_value hclean hpath, hclean.allowed_attribute hlabel⟩

end Gexf

/-- What is known of **GEXF documents**, where the date is allowed: they are written from elements that
tell the multigraph. -/
def Library.WritesGexf (library : Library) : Prop :=
  ∀ date m text, Allowed date → m.WellFormed → library.gexf date m = .opened text none →
    ∃ e, text = Xml.document e ∧ Tells Gexf.nodes? Gexf.arcs? m e

namespace Gexf

/-! ### The standard library -/

/-- The element of the graph in a document. -/
def graph (m : Multigraph) : Element :=
  .branch "graph" [("defaultedgetype", "directed"), ("mode", "static"), ("name", "")] (parts m)

theorem node?_node (h : n ∈ m.nodes) : node? ((graph m).node 1) ((node n).node 3) = some n := by
  have hnodes : m.nodes.isEmpty = false := List.isEmpty_eq_false_iff.mpr (List.ne_nil_of_mem h)
  have hpath : value? ((graph m).node 1) ((node n).node 3) "path" = some n.path := by
    rw [graph, parts, hnodes]
    cases m.groupedArcs.isEmpty <;> rfl
  have hid : ((node n).node 3).attribute? "id" = some n.id := rfl
  have hlabel : ((node n).node 3).attribute? "label" = some n.label := rfl
  rw [node?, hid, hpath, hlabel]
  rfl

theorem arc?_edge {numbered : Arc × ℕ} (h : numbered.1 ∈ m.groupedArcs) :
    arc? ((graph m).node 1) ((edge numbered).node 3) = some numbered.1 := by
  have harcs : m.groupedArcs.isEmpty = false := List.isEmpty_eq_false_iff.mpr (List.ne_nil_of_mem h)
  obtain ⟨a, number⟩ := numbered
  have horder : value? ((graph m).node 1) ((edge (a, number)).node 3) "order" =
      some (Text.ofNat a.order) := by
    rw [graph, parts, harcs]
    rfl
  have hcopy : value? ((graph m).node 1) ((edge (a, number)).node 3) "networkx_key" =
      some (Text.ofNat a.copy) := by
    rw [graph, parts, harcs]
    rfl
  have hsource : ((edge (a, number)).node 3).attribute? "source" = some a.source := rfl
  have htarget : ((edge (a, number)).node 3).attribute? "target" = some a.target := rfl
  rw [arc?, hsource, htarget, hcopy, horder]
  simp only [Option.bind_eq_bind, Option.bind_some, nat?_ofNat]
  rfl

theorem nodes?_root (date : Text) (m : Multigraph) : nodes? ((root date m).node 0) = some m.nodes := by
  have hgraph : ((root date m).node 0).child? "graph" [] = some ((graph m).node 1) := rfl
  have hlist : ((graph m).node 1).child? "nodes" [] =
      some ((Element.branch "nodes" [] (m.nodes.map node)).node 2) := by
    rw [graph, parts]
    cases m.groupedArcs.isEmpty <;> cases m.nodes.isEmpty <;> rfl
  have hnode : ∀ n, ((node n).node 3).tag = "node" := fun _ => rfl
  have hnodes : ((Element.branch "nodes" [] (m.nodes.map node)).node 2).childrenOf "node" =
      m.nodes.map fun n => (node n).node 3 := by
    simp [Xml.Node.childrenOf, children_node, List.filter_map, Function.comp_def, hnode]
  simp only [nodes?, hgraph, hlist, hnodes, Option.bind_eq_bind, Option.bind_some]
  exact mapM_map_self fun n hn => node?_node hn

theorem arcs?_root (date : Text) (m : Multigraph) :
    arcs? ((root date m).node 0) = some m.groupedArcs := by
  have hgraph : ((root date m).node 0).child? "graph" [] = some ((graph m).node 1) := rfl
  have hlist : ((graph m).node 1).child? "edges" [] =
      some ((Element.branch "edges" [] (m.groupedArcs.zipIdx.map edge)).node 2) := by
    rw [graph, parts]
    cases m.groupedArcs.isEmpty <;> cases m.nodes.isEmpty <;> rfl
  have hedge : ∀ numbered : Arc × ℕ, ((edge numbered).node 3).tag = "edge" := fun _ => rfl
  have hedges : ((Element.branch "edges" [] (m.groupedArcs.zipIdx.map edge)).node 2).childrenOf "edge" =
      m.groupedArcs.zipIdx.map fun numbered => (edge numbered).node 3 := by
    simp [Xml.Node.childrenOf, children_node, List.filter_map, Function.comp_def, hedge]
  simp only [arcs?, hgraph, hlist, hedges, Option.bind_eq_bind, Option.bind_some]
  have htold : ∀ numbered ∈ m.groupedArcs.zipIdx,
      arc? ((graph m).node 1) ((edge numbered).node 3) = some numbered.1 :=
    fun _ h => arc?_edge (List.fst_mem_of_mem_zipIdx h)
  rw [mapM_map_eq_some htold, List.zipIdx_map_fst]

theorem readable_value (id v : Text) : Readable (value id v) :=
  .leaf rfl (show AreNames ["for".toList, "value".toList] by decide)

theorem readable_root (date : Text) (m : Multigraph) : Readable (root date m) := by
  have hdeclaration : ∀ id title type, Readable (declaration id title type) := fun _ _ _ =>
    .leaf rfl (show AreNames ["id".toList, "title".toList, "type".toList] by decide)
  have hdeclarations : ∀ kind values, (∀ v ∈ values, Readable v) →
      Readable (declarations kind values) := fun _ _ h =>
    .branch rfl (show AreNames ["mode".toList, "class".toList] by decide) h
  have hvalues : ∀ values, (∀ v ∈ values, Readable v) → Readable (.branch "attvalues" [] values) :=
    fun _ h => .branch rfl (by decide) h
  have hnode : ∀ n, Readable (node n) := by
    intro n
    refine .branch rfl (show AreNames ["id".toList, "label".toList] by decide) ?_
    exact List.forall_mem_singleton.mpr (hvalues _ (List.forall_mem_singleton.mpr (readable_value _ _)))
  have hedge : ∀ numbered, Readable (edge numbered) := by
    intro numbered
    refine .branch rfl
      (show AreNames ["source".toList, "target".toList, "id".toList] by decide) ?_
    refine List.forall_mem_singleton.mpr (hvalues _ ?_)
    simp [readable_value]
  have hparts : ∀ e ∈ parts m, Readable e := by
    simp only [parts, List.forall_mem_append]
    refine ⟨⟨?_, ?_⟩, ?_⟩
    · split <;> simp [hdeclaration, hdeclarations]
    · split <;> simp [hdeclaration, hdeclarations]
    · simp only [List.forall_mem_cons]
      refine ⟨.branch rfl (by decide) ?_, .branch rfl (by decide) ?_, List.forall_mem_nil _⟩
      · exact List.forall_mem_map.mpr fun n _ => hnode n
      · exact List.forall_mem_map.mpr fun numbered _ => hedge numbered
  refine .branch rfl (show AreNames ["xmlns".toList, "xmlns:xsi".toList,
    "xsi:schemaLocation".toList, "version".toList] by decide) ?_
  simp only [List.forall_mem_cons]
  refine ⟨.branch rfl (show AreNames ["lastmodifieddate".toList] by decide) ?_,
    .branch rfl (show AreNames ["defaultedgetype".toList, "mode".toList, "name".toList] by decide)
      hparts, List.forall_mem_nil _⟩
  exact List.forall_mem_singleton.mpr (.leaf rfl (by decide))

/-- The document carries nothing that is not allowed but what the nodes and the date carry. -/
theorem allowed_content {date : Text} (hdate : Allowed date) (h : m.WellFormed)
    (hall : ∀ n ∈ m.nodes, n.Allowed) : Allowed (root date m).content := by
  have hnode : ∀ n ∈ m.nodes, Allowed (node n).content := by
    intro n hn
    obtain ⟨hid, hpath, hlabel⟩ := hall n hn
    simp [node, value, Element.content, contents, isChar, hid, hpath, hlabel]
  have hedge : ∀ numbered ∈ m.groupedArcs.zipIdx, Allowed (edge numbered).content := by
    intro numbered hnumbered
    obtain ⟨hsource, htarget⟩ :=
      Multigraph.allowed_of_mem_groupedArcs h hall (List.fst_mem_of_mem_zipIdx hnumbered)
    simp [edge, value, Element.content, contents, allowed_ofNat, isChar, hsource, htarget]
  have hdeclarations : Allowed (contents
      ((if m.groupedArcs.isEmpty then [] else
        [declarations "edge" [declaration "1" "order" "long", declaration "2" "networkx_key" "long"]]) ++
      (if m.nodes.isEmpty then [] else [declarations "node" [declaration "0" "path" "string"]]))) := by
    cases m.groupedArcs.isEmpty <;> cases m.nodes.isEmpty <;> decide +kernel
  have hparts : Allowed (contents (parts m)) := by
    rw [parts, contents_append, allowed_append]
    refine ⟨hdeclarations, ?_⟩
    simp only [Element.content, contents, List.flatMap_nil, List.nil_append, allowed_append,
      allowed_contents_map, allowed_nil, and_true]
    exact ⟨hnode, hedge⟩
  rw [root, Element.content, allowed_append]
  refine ⟨by decide +kernel, ?_⟩
  simp [Element.content, contents, hdate, hparts, isChar]

end Gexf

/-- The standard library writes GEXF documents. -/
theorem Library.standard_writesGexf : Library.standard.WritesGexf := by
  intro date m text hdate hm h
  exact ⟨Gexf.root date m, (Course.opened.inj h).1.symm, Gexf.readable_root date m,
    Gexf.nodes?_root date m, ⟨_, m.groupedArcs_perm hm, Gexf.arcs?_root date m⟩,
    Gexf.allowed_content hdate hm⟩

end IncludeTrace
