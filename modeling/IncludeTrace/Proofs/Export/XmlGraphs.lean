import IncludeTrace.Proofs.Export.Gexf
import IncludeTrace.Proofs.Export.GraphMl
import IncludeTrace.World.Standard

/-!
# Graphs as XML documents

GraphML and GEXF documents hold the whole graph, as far as XML can: whoever reads the exported file
finds the items as nodes, and arcs that spell out every include list.

Two things do not come through. XML allows no control characters but blanks, and neither format has
another way to write them: a document can be read if and only if no key and no path has one. And GraphML
keeps paths and labels between tags, where a carriage return is read as a line feed.
`Graph.xml_export_reads_back` says this of the exported file; `Graph.xml_export_carriage_return` and
`Graph.xml_export_control` show files that succeed in being written and lose a path.
-/

namespace IncludeTrace

open Xml

variable {g : Graph} {i : Item}

/-- A label has no characters but those of the path. -/
theorem Item.mem_of_mem_label {c : Char} (h : c ∈ i.label) : c ∈ i.path ∨ c = '/' := by
  rw [Item.label, Path.label, Path.baseName, Text.afterLast, List.mem_reverse] at h
  obtain ⟨d, hd, rfl⟩ := List.mem_map.mp (List.mem_reverse.mp ((List.takeWhile_sublist _).subset h))
  split
  · exact .inr rfl
  · exact .inl hd

theorem Item.allowed_label (h : Allowed i.path) : Allowed i.label := by
  intro c hc
  rcases Item.mem_of_mem_label hc with hc | rfl
  · exact h c hc
  · rfl

/-- GraphML keeps a node whose path has no carriage return. -/
theorem GraphMl.found_node (h : '\r' ∉ i.path) : GraphMl.found i.node = i.node := by
  have hlabel : '\r' ∉ i.label := fun hmem => (Item.mem_of_mem_label hmem).elim h (by decide)
  rw [found, Item.node, unifyLines_of_not_mem h, unifyLines_of_not_mem hlabel]

namespace Graph

/-- The nodes of a graph are allowed if the keys and paths are. -/
theorem forall_allowed_iff (g : Graph) : (∀ n ∈ g.multigraph.nodes, n.Allowed) ↔
    ∀ i ∈ g.items, Allowed i.key ∧ Allowed i.path := by
  rw [multigraph, List.forall_mem_map]
  refine forall₂_congr fun i _ => ⟨?_, ?_⟩
  · rintro ⟨hkey, hpath, -⟩
    exact ⟨hkey, hpath⟩
  · rintro ⟨hkey, hpath⟩
    exact ⟨hkey, hpath, Item.allowed_label hpath⟩

/-- A document that tells a graph has only allowed characters if and only if the keys and paths have. -/
theorem allowed_document_iff {nodes? : Xml.Node → Option (List Multigraph.Node)}
    {arcs? : Xml.Node → Option (List Arc)} {e : Element} (h : Tells nodes? arcs? g.multigraph e)
    (hclean : ∀ {root ns}, root.Clean → nodes? root = some ns → ∀ n ∈ ns, n.Allowed) :
    Allowed (document e) ↔ ∀ i ∈ g.items, Allowed i.key ∧ Allowed i.path :=
  (h.allowed_document_iff hclean).trans g.forall_allowed_iff

/-- **An XML file can be read back if and only if the keys and paths of the graph are allowed in XML**,
if the library writes from elements that tell the graph, as it is known.

Whenever a graph that operations reach is exported as GraphML or as GEXF, the file holds a text, in
UTF-8. All its characters are allowed if and only if those of the keys and paths are, and then it is
read. It has a node for every item, in the order in which the items were made, with its key, path and
label; only GraphML has line feeds for the carriage returns in paths and labels. It has as many arcs as
there are includes, all from one file of the graph to another; and for every item, the arcs from it
spell out its include list. -/
theorem xml_export_reads_back (ops : List Operation) (g : Graph) (h : Reached ops g) (w : World)
    (hgraphMl : w.host.library.WritesGraphMl) (hgexf : w.host.library.WritesGexf)
    (hdate : Allowed w.today) (p : Palette) (dotWriter : Bool) (filename : Text)
    (hformat : (Export.target filename).1 = .graphMl ∨ (Export.target filename).1 = .gexf)
    (hwritten : (g.exportTo w p dotWriter filename).written = true) :
    ∃ text arcs,
      (g.exportTo w p dotWriter filename).world.bytes? (Export.target filename).2.1 =
        some (Utf8.encode text) ∧
      Utf8.strict (Utf8.encode text) = .ok text ∧
      (Allowed text ↔ ∀ i ∈ g.items, Allowed i.key ∧ Allowed i.path) ∧
      (Allowed text → ∃ root, Xml.read text = some root ∧
        ((Export.target filename).1 = .graphMl →
          GraphMl.nodes? root = some (g.items.map fun i => GraphMl.found i.node) ∧
          GraphMl.arcs? root = some arcs) ∧
        ((Export.target filename).1 = .gexf →
          Gexf.nodes? root = some (g.items.map Item.node) ∧ Gexf.arcs? root = some arcs)) ∧
      (∀ i ∈ g.items, '\r' ∉ i.path → GraphMl.found i.node = ⟨i.key, i.path, i.label⟩) ∧
      arcs.length = g.edgeCount ∧
      (∀ a ∈ arcs, ∃ i ∈ g.items, ∃ j ∈ g.items, a.source = i.key ∧ a.target = j.key) ∧
      ∀ i ∈ g.items, Arc.SpellOut (arcs.filter fun a => a.source = i.key) i.includes := by
  have hwell := h.wellFormed
  have hmulti := wellFormed_multigraph hwell
  obtain ⟨text, hcourse, hbytes⟩ := exists_text_of_written hwritten
  rcases hformat with hformat | hformat
  · have hdocument : w.host.library.graphMl g.multigraph = .opened text none := by
      rw [← hcourse, exportCourse, hformat]
      rfl
    obtain ⟨e, rfl, htells⟩ := hgraphMl _ _ hmulti hdocument
    obtain ⟨arcs, hperm, harcs⟩ := htells.arcs
    refine ⟨_, arcs, hbytes, Utf8.strict_encode _,
      allowed_document_iff htells GraphMl.allowed_of_nodes?,
      fun hallowed => ⟨_, htells.read_eq_some hallowed, fun _ => ⟨?_, GraphMl.arcs?_unified harcs⟩, ?_⟩,
      fun i _ => GraphMl.found_node, holds_of_perm hwell hperm⟩
    · rw [GraphMl.nodes?_unified htells.nodes, multigraph, List.map_map]
      rfl
    · intro hother
      cases hformat.symm.trans hother
  · have hdocument : w.host.library.gexf w.today g.multigraph = .opened text none := by
      rw [← hcourse, exportCourse, hformat]
      rfl
    obtain ⟨e, rfl, htells⟩ := hgexf _ _ _ hdate hmulti hdocument
    obtain ⟨arcs, hperm, harcs⟩ := htells.arcs
    refine ⟨_, arcs, hbytes, Utf8.strict_encode _,
      allowed_document_iff htells Gexf.allowed_of_nodes?,
      fun hallowed => ⟨_, htells.read_eq_some hallowed, ?_,
        fun _ => ⟨Gexf.nodes?_unified htells.nodes, Gexf.arcs?_unified harcs⟩⟩,
      fun i _ => GraphMl.found_node, holds_of_perm hwell hperm⟩
    intro hother
    cases hformat.symm.trans hother

/-- A file with a tab, a line feed and an ampersand in its name that includes itself and one with
brackets in its name, twice. -/
theorem xml_export_reads_back_escaped :
    let view : FileView := ⟨['/'], fun _ => false⟩
    let w : World := ⟨['/'], [], [], [], [], [], "2024-02-29", [], [], .standard⟩
    let ops : List Operation := [.create view "A\t\n&".toList, .create view "<\">".toList,
      .connect "/a\t\n&".toList "/<\">".toList, .connect "/a\t\n&".toList "/a\t\n&".toList,
      .connect "/a\t\n&".toList "/<\">".toList]
    ∃ g, Reached ops g ∧ ∃ text root,
      (g.exportTo w .plain false "o.xml".toList).world.bytes? "o.xml.graphml".toList =
        some (Utf8.encode text) ∧
      Allowed text ∧ Xml.read text = some root ∧
      GraphMl.nodes? root = some [⟨"/a\t\n&", "/A\t\n&", "A\t\n&"⟩, ⟨"/<\">", "/<\">", "<\">"⟩] ∧
      ∃ arcs, GraphMl.arcs? root = some arcs ∧ Arc.SpellOut
        (arcs.filter fun a => a.source = "/a\t\n&".toList) ["/<\">", "/a\t\n&", "/<\">"] := by
  intro view w ops
  have hreached := ((((Reached.nil.snoc (.create view "A\t\n&".toList) trivial).snoc
    (.create view "<\">".toList) trivial).snoc
    (.connect "/a\t\n&".toList "/<\">".toList) ⟨by decide +kernel, by decide +kernel⟩).snoc
    (.connect "/a\t\n&".toList "/a\t\n&".toList) ⟨by decide +kernel, by decide +kernel⟩).snoc
    (.connect "/a\t\n&".toList "/<\">".toList) ⟨by decide +kernel, by decide +kernel⟩
  obtain ⟨text, arcs, hbytes, -, hallowed, hread, -, -, -, hspelt⟩ := xml_export_reads_back ops _ hreached
    w Library.standard_writesGraphMl Library.standard_writesGexf (by decide +kernel) .plain false
    "o.xml".toList (by decide +kernel) (by decide +kernel)
  have htext : Allowed text := hallowed.mpr (by decide +kernel)
  obtain ⟨root, hroot, hgraphMl, -⟩ := hread htext
  obtain ⟨hnodes, harcs⟩ := hgraphMl (by decide +kernel)
  refine ⟨_, hreached, text, root, hbytes, htext, hroot, hnodes.trans (by decide +kernel), arcs, harcs, ?_⟩
  exact hspelt ⟨"/a\t\n&", "/A\t\n&", ["/<\">", "/a\t\n&", "/<\">"]⟩ (by decide +kernel)

/-- **A carriage return in a path is read back as a line feed** from GraphML, although all characters
of the file are allowed. -/
theorem xml_export_carriage_return :
    let view : FileView := ⟨['/'], fun _ => false⟩
    let w : World := ⟨['/'], [], [], [], [], [], "2024-02-29", [], [], .standard⟩
    ∃ g, Reached [.merge view ⟨"/a\rb.cpp", [], TraceLine.standardMarker, []⟩] g ∧
      (g.exportTo w .plain false "o.graphml".toList).written = true ∧
      (∃ i ∈ g.items, i.path = "/a\rb.cpp".toList) ∧
      ∃ text, (g.exportTo w .plain false "o.graphml".toList).world.bytes? "o.graphml".toList =
          some (Utf8.encode text) ∧
        Allowed text ∧
        (Xml.read text).bind GraphMl.nodes? = some [⟨"/a\rb.cpp", "/a\nb.cpp", "a\nb.cpp"⟩] := by
  intro view w
  let merge : Operation := .merge view ⟨"/a\rb.cpp", [], TraceLine.standardMarker, []⟩
  let g := (merge.run empty).1
  have hreached : Reached [merge] g := Reached.nil.snoc merge trivial
  have hwritten : (g.exportTo w .plain false "o.graphml".toList).written = true := by
    decide +kernel
  obtain ⟨text, hcourse, hbytes⟩ := exists_text_of_written hwritten
  obtain ⟨e, rfl, htells⟩ := Library.standard_writesGraphMl _ text
    (wellFormed_multigraph hreached.wellFormed) hcourse
  have hallowed := (allowed_document_iff htells GraphMl.allowed_of_nodes?).mpr (by decide +kernel)
  refine ⟨_, hreached, hwritten, by decide +kernel, _, hbytes, hallowed, ?_⟩
  rw [htells.read_eq_some hallowed]
  exact (GraphMl.nodes?_unified htells.nodes).trans (by decide +kernel)

/-- **A character that XML does not allow goes into the file**: the control character of a reported
path. -/
theorem xml_export_control :
    let view : FileView := ⟨['/'], fun _ => false⟩
    let w : World := ⟨['/'], [], [], [], [], [], "2024-02-29", [], [], .standard⟩
    let report : Text := "Note: including file: /\x01.h"
    ∃ g, Reached [.merge view ⟨"/a.cpp", [], TraceLine.standardMarker, report⟩] g ∧
      (g.exportTo w .plain false "o.gexf".toList).written = true ∧
      ∃ text, (g.exportTo w .plain false "o.gexf".toList).world.bytes? "o.gexf".toList =
          some (Utf8.encode text) ∧
        ¬ Allowed text ∧ Xml.read text = none := by
  intro view w report
  let merge : Operation := .merge view ⟨"/a.cpp", [], TraceLine.standardMarker, report⟩
  let g := (merge.run empty).1
  have hreached : Reached [merge] g := Reached.nil.snoc merge trivial
  have hwritten : (g.exportTo w .plain false "o.gexf".toList).written = true := by
    decide +kernel
  obtain ⟨text, hcourse, hbytes⟩ := exists_text_of_written hwritten
  obtain ⟨e, rfl, htells⟩ := Library.standard_writesGexf _ _ text (by decide +kernel)
    (wellFormed_multigraph hreached.wellFormed) hcourse
  have hallowed : ¬ Allowed (Xml.document e) :=
    (allowed_document_iff htells Gexf.allowed_of_nodes?).not.mpr (by decide +kernel)
  exact ⟨_, hreached, hwritten, _, hbytes, hallowed, read_of_not_allowed hallowed⟩

end Graph

end IncludeTrace
