import IncludeTrace.Proofs.Export.Basic
import IncludeTrace.Proofs.Graph.Arcs
import IncludeTrace.Proofs.Graph.History
import IncludeTrace.Proofs.Json.RoundTrip
import IncludeTrace.Proofs.Text.Utf8
import IncludeTrace.World.Standard
import Mathlib.Data.List.Forall2

/-!
# Graphs as node-link documents

A node-link document holds the whole graph. Whoever reads the file back, as JSON, finds the items as
nodes in the order in which they were made, and arcs that spell out every include list:
`Graph.nodeLink_export_holds_graph`.

The value that the file is written from is the library's. All that is used of it is what libraries of
this kind document (`Library.WritesNodeLink`): it lists objects for the nodes and for the arcs, where
the arcs and the members of an object come in any order. That the standard library writes such values is
`Library.standard_writesNodeLink`.

What is read is a JSON value, and what it says is taken from it member by member (`NodeLink.nodes?`,
`NodeLink.arcs?`), with no knowledge of how it was written. The only numbers in a document are the
orders and copies of arcs. They are smaller than the number of includes, so a reader that can take a
numeral for this number can read the document.
-/

namespace IncludeTrace

/-- What a partial function gives for a list is the list of what it gives for its entries. -/
theorem mapM_eq_some_iff {α β : Type} {f : α → Option β} {l : List α} {r : List β} :
    l.mapM f = some r ↔ List.Forall₂ (fun a b => f a = some b) l r := by
  induction l generalizing r with
  | nil =>
    rw [List.mapM_nil, List.forall₂_nil_left_iff]
    exact ⟨fun h => (Option.some.inj h).symm, fun h => congrArg some h.symm⟩
  | cons a l ih =>
    rw [List.mapM_cons]
    constructor
    · intro h
      obtain ⟨b, hb, h⟩ := Option.bind_eq_some_iff.mp h
      obtain ⟨bs, hbs, h⟩ := Option.bind_eq_some_iff.mp h
      obtain rfl : b :: bs = r := Option.some.inj h
      exact .cons hb (ih.mp hbs)
    · intro h
      cases h with
      | cons hb hbs => simp [hb, ih.mpr hbs]

/-- Of two related lists, every entry of the second has one of the first. -/
theorem exists_mem_of_forall₂ {α β : Type} {R : α → β → Prop} {xs : List α} {vs : List β}
    (h : List.Forall₂ R xs vs) {v : β} (hv : v ∈ vs) : ∃ x ∈ xs, R x v := by
  induction h with
  | nil => cases hv
  | @cons x _ _ _ hx _ ih =>
    rcases List.mem_cons.mp hv with rfl | hv
    · exact ⟨x, List.mem_cons_self, hx⟩
    · obtain ⟨y, hy, hrelated⟩ := ih hv
      exact ⟨y, List.mem_cons_of_mem x hy, hrelated⟩

namespace Json

/-- The text that a value is, if it is one without halves of characters. -/
def text? : Json → Option Text
  | string letters => if (letters.chars : Letters) = letters then some letters.chars else none
  | _ => none

/-- The natural number that a value is, if it is one. -/
def nat? : Json → Option ℕ
  | number (.whole (.ofNat n)) => some n
  | _ => none

/-- The elements of a list, if the value is one. -/
def elements? : Json → Option (List Json)
  | list elements => some elements
  | _ => none

@[simp]
theorem text?_text (t : Text) : (text t).text? = some t := by
  rw [text, text?, Letters.chars_ofText, if_pos rfl]

@[simp]
theorem nat?_nat (n : ℕ) : (nat n).nat? = some n := rfl

@[simp]
theorem elements?_list (vs : List Json) : (list vs).elements? = some vs := rfl

/-! ### Objects whose members come in any order -/

/-- A value is an **object of** some members if it has these, in any order. -/
def IsObjectOf (members : List (Text × Json)) (v : Json) : Prop :=
  ∃ ms : List (Letters × Json),
    ms.Perm (members.map fun m => (Letters.ofText m.1, m.2)) ∧ v = .object ms

variable {members : List (Text × Json)} {v value : Json} {name : Text}

theorem isObjectOf_object (members : List (Text × Json)) :
    IsObjectOf members (.object (members.map fun m => (Letters.ofText m.1, m.2))) :=
  ⟨_, .refl _, rfl⟩

/-- The names of the members of an object are distinct if the given ones are. -/
theorem nodup_of_perm {ms : List (Letters × Json)}
    (hperm : ms.Perm (members.map fun m => (Letters.ofText m.1, m.2)))
    (hn : (members.map Prod.fst).Nodup) : (ms.map Prod.fst).Nodup := by
  have hnames : (members.map fun m => (Letters.ofText m.1, m.2)).map Prod.fst =
      (members.map Prod.fst).map Letters.ofText := by
    rw [List.map_map, List.map_map]
    rfl
  rw [(hperm.map Prod.fst).nodup_iff, hnames]
  exact hn.map (Function.LeftInverse.injective Letters.chars_ofText)

/-- **The members of an object are found under their names**, wherever they stand. -/
theorem member?_eq_some (h : IsObjectOf members v) (hn : (members.map Prod.fst).Nodup)
    (hmem : (name, value) ∈ members) : v.member? name = some value := by
  obtain ⟨ms, hperm, rfl⟩ := h
  exact Table.get?_of_mem (nodup_of_perm hperm hn)
    (hperm.mem_iff.mpr (List.mem_map_of_mem hmem))

/-- An object can be read back if its members can. -/
theorem readable_of_isObjectOf {most : Option ℕ} {room : ℕ} (h : IsObjectOf members v)
    (hn : (members.map Prod.fst).Nodup) (hmembers : ∀ m ∈ members, Readable most room m.2) :
    Readable most (room + 1) v := by
  obtain ⟨ms, hperm, rfl⟩ := h
  refine .object (nodup_of_perm hperm hn) (fun m hm => ?_) fun m hm => ?_ <;>
    obtain ⟨member, hmember, rfl⟩ := List.mem_map.mp (hperm.mem_iff.mp hm)
  · exact ⟨member.1, rfl⟩
  · exact hmembers member hmember

end Json

namespace NodeLink

/-! ### What is known of the values -/

/-- The members of the object of a node. -/
def nodeMembers (n : Multigraph.Node) : List (Text × Json) :=
  [("id", .text n.id), ("path", .text n.path), ("label", .text n.label)]

/-- The members of the object of an arc. -/
def edgeMembers (a : Arc) : List (Text × Json) :=
  [("source", .text a.source), ("target", .text a.target), ("key", .nat a.copy),
    ("order", .nat a.order)]

/-- The members of an object that lists nodes and edges. -/
def valueMembers (edgesName : Text) (nodes edges : List Json) : List (Text × Json) :=
  [("directed", .bool true), ("multigraph", .bool true), ("graph", .object []),
    ("nodes", .list nodes), (edgesName, .list edges)]

theorem nodup_nodeMembers (n : Multigraph.Node) : ((nodeMembers n).map Prod.fst).Nodup :=
  show [("id" : Text), "path", "label"].Nodup by decide

theorem nodup_edgeMembers (a : Arc) : ((edgeMembers a).map Prod.fst).Nodup :=
  show [("source" : Text), "target", "key", "order"].Nodup by decide

/-- A value **describes** a multigraph if it is an object that lists an object for every node, in order,
and one for every arc, in any order. -/
def Describes (edgesName : Text) (m : Multigraph) (v : Json) : Prop :=
  ∃ nodes arcs edges, List.Forall₂ (fun n => Json.IsObjectOf (nodeMembers n)) m.nodes nodes ∧
    arcs.Perm m.arcs ∧ List.Forall₂ (fun a => Json.IsObjectOf (edgeMembers a)) arcs edges ∧
    Json.IsObjectOf (valueMembers edgesName nodes edges) v

end NodeLink

/-- What libraries document of **node-link values**: the value describes the multigraph, and the member
that lists the edges has one of two names. -/
structure Library.WritesNodeLink (library : Library) : Prop where
  name : library.edgesName = "edges" ∨ library.edgesName = "links"
  value : ∀ m v, m.WellFormed → library.nodeLink m = .ok v → NodeLink.Describes library.edgesName m v

namespace NodeLink

/-- The object of a node, in the order of the standard library. -/
theorem isObjectOf_node (n : Multigraph.Node) : Json.IsObjectOf (nodeMembers n) (node n) :=
  ⟨_, @List.perm_append_comm _ [_, _] [_], rfl⟩

/-- The object of an arc, in the order of the standard library. -/
theorem isObjectOf_edge (a : Arc) : Json.IsObjectOf (edgeMembers a) (edge a) :=
  ⟨_, @List.perm_append_comm _ [_] [_, _, _], rfl⟩

end NodeLink

/-- The standard library writes node-link values. -/
theorem Library.standard_writesNodeLink : Library.standard.WritesNodeLink where
  name := .inl rfl
  value m v hm h := by
    obtain rfl : NodeLink.value "edges" m = v := Except.ok.inj h
    refine ⟨m.nodes.map NodeLink.node, m.groupedArcs, m.groupedArcs.map NodeLink.edge, ?_,
      m.groupedArcs_perm hm, ?_, Json.isObjectOf_object _⟩ <;>
      rw [List.forall₂_map_right_iff, List.forall₂_same]
    · exact fun n _ => NodeLink.isObjectOf_node n
    · exact fun a _ => NodeLink.isObjectOf_edge a

namespace NodeLink

/-! ### Reading a graph off a value -/

/-- The node that a value describes. -/
def node? (v : Json) : Option Multigraph.Node := do
  return ⟨← (← v.member? "id").text?, ← (← v.member? "path").text?, ← (← v.member? "label").text?⟩

/-- The arc that a value describes. -/
def arc? (v : Json) : Option Arc := do
  return ⟨← (← v.member? "source").text?, ← (← v.member? "target").text?,
    ← (← v.member? "key").nat?, ← (← v.member? "order").nat?⟩

/-- The nodes that a value lists. -/
def nodes? (v : Json) : Option (List Multigraph.Node) := do
  (← (← v.member? "nodes").elements?).mapM node?

/-- The arcs that a value lists in a member. -/
def arcs? (edgesName : Text) (v : Json) : Option (List Arc) := do
  (← (← v.member? edgesName).elements?).mapM arc?

theorem node?_eq_some {n : Multigraph.Node} {v : Json} (h : Json.IsObjectOf (nodeMembers n) v) :
    node? v = some n := by
  have hn := nodup_nodeMembers n
  have hid := Json.member?_eq_some h hn (.head _)
  have hpath := Json.member?_eq_some h hn (.tail _ (.head _))
  have hlabel := Json.member?_eq_some h hn (.tail _ (.tail _ (.head _)))
  rw [node?, hid, hpath, hlabel]
  simp

theorem arc?_eq_some {a : Arc} {v : Json} (h : Json.IsObjectOf (edgeMembers a) v) :
    arc? v = some a := by
  have hn := nodup_edgeMembers a
  have hsource := Json.member?_eq_some h hn (.head _)
  have htarget := Json.member?_eq_some h hn (.tail _ (.head _))
  have hcopy := Json.member?_eq_some h hn (.tail _ (.tail _ (.head _)))
  have horder := Json.member?_eq_some h hn (.tail _ (.tail _ (.tail _ (.head _))))
  rw [arc?, hsource, htarget, hcopy, horder]
  simp

/-- The names of the members that list nodes and edges are distinct. -/
theorem nodup_valueMembers {edgesName : Text} (hname : edgesName = "edges" ∨ edgesName = "links")
    (nodes edges : List Json) : ((valueMembers edgesName nodes edges).map Prod.fst).Nodup := by
  rcases hname with rfl | rfl
  · exact show [("directed" : Text), "multigraph", "graph", "nodes", "edges"].Nodup by decide
  · exact show [("directed" : Text), "multigraph", "graph", "nodes", "links"].Nodup by decide

/-- **What a value describes is read off it**: the nodes in order, and the arcs in some order. -/
theorem exists_arcs?_of_describes {edgesName : Text} {m : Multigraph} {v : Json}
    (hname : edgesName = "edges" ∨ edgesName = "links") (h : Describes edgesName m v) :
    nodes? v = some m.nodes ∧ ∃ arcs, arcs.Perm m.arcs ∧ arcs? edgesName v = some arcs := by
  obtain ⟨nodes, arcs, edges, hnodes, hperm, hedges, hv⟩ := h
  have hn := nodup_valueMembers hname nodes edges
  have hnodesMember := Json.member?_eq_some hv hn
    (.tail _ (.tail _ (.tail _ (.head _))))
  have hedgesMember := Json.member?_eq_some hv hn
    (.tail _ (.tail _ (.tail _ (.tail _ (.head _)))))
  constructor
  · rw [nodes?, hnodesMember]
    exact mapM_eq_some_iff.mpr (hnodes.flip.imp fun _ _ => node?_eq_some)
  · refine ⟨arcs, hperm, ?_⟩
    rw [arcs?, hedgesMember]
    exact mapM_eq_some_iff.mpr (hedges.flip.imp fun _ _ => arc?_eq_some)

/-! ### The document of a graph -/

variable {most : Option ℕ} {room : ℕ}

theorem readable_node {n : Multigraph.Node} {v : Json} (h : Json.IsObjectOf (nodeMembers n) v) :
    Json.Readable most (room + 1) v := by
  refine Json.readable_of_isObjectOf h (nodup_nodeMembers n) ?_
  simp only [nodeMembers, List.forall_mem_cons]
  exact ⟨.text _, .text _, .text _, by simp⟩

/-- An arc can be read back if the numbers that it carries can. -/
theorem readable_edge {a : Arc} {v : Json} (horder : Json.refuses most (Text.ofNat a.order) = false)
    (hcopy : Json.refuses most (Text.ofNat a.copy) = false) (h : Json.IsObjectOf (edgeMembers a) v) :
    Json.Readable most (room + 1) v := by
  refine Json.readable_of_isObjectOf h (nodup_edgeMembers a) ?_
  simp only [edgeMembers, List.forall_mem_cons]
  exact ⟨.text _, .text _, .whole hcopy, .whole horder, by simp⟩

/-- Smaller numbers have no longer numerals. -/
theorem refuses_of_le {n m : ℕ} (hle : n ≤ m) (h : Json.refuses most (Text.ofNat m) = false) :
    Json.refuses most (Text.ofNat n) = false := by
  cases most with
  | none => rfl
  | some most =>
    -- a numeral of so many digits is below the power of ten, and so is every smaller number
    have hlength : (Text.ofNat n).length ≤ (Text.ofNat m).length := by
      have hm : m < 10 ^ (Text.ofNat m).length :=
        (Nat.length_toDigits_le_iff (by decide) Nat.length_toDigits_pos).mp (Nat.le_refl _)
      exact (Nat.length_toDigits_le_iff (by decide) Nat.length_toDigits_pos).mpr
        (Nat.lt_of_le_of_lt hle hm)
    simp only [Json.refuses, Option.any_some, decide_eq_false_iff_not, Nat.not_lt] at h ⊢
    exact Nat.le_trans hlength h

/-- **A value that describes a graph can be read back** from three levels if the number of includes can.
-/
theorem readable_of_describes {g : Graph} {edgesName : Text} {v : Json}
    (hname : edgesName = "edges" ∨ edgesName = "links") (h : Describes edgesName g.multigraph v)
    (hdigits : Json.refuses most (Text.ofNat g.edgeCount) = false) :
    Json.Readable most (room + 3) v := by
  obtain ⟨nodes, arcs, edges, hnodes, hperm, hedges, hv⟩ := h
  have hnodesReadable : Json.Readable most (room + 2) (.list nodes) := by
    refine .list fun v hv => ?_
    obtain ⟨n, -, hnode⟩ := exists_mem_of_forall₂ hnodes hv
    exact readable_node hnode
  have hedgesReadable : Json.Readable most (room + 2) (.list edges) := by
    refine .list fun v hv => ?_
    obtain ⟨a, ha, hedge⟩ := exists_mem_of_forall₂ hedges hv
    obtain ⟨horder, hcopy⟩ := Graph.lt_edgeCount_of_mem_arcs (hperm.mem_iff.mp ha)
    exact readable_edge (refuses_of_le (Nat.le_of_lt horder) hdigits)
      (refuses_of_le (Nat.le_of_lt hcopy) hdigits) hedge
  refine Json.readable_of_isObjectOf hv (nodup_valueMembers hname nodes edges) ?_
  simp only [valueMembers, List.forall_mem_cons]
  exact ⟨.bool true, .bool true, .object List.nodup_nil (by simp) (by simp), hnodesReadable,
    hedgesReadable, by simp⟩

/-- The document of a graph is read as the value it was written from. -/
theorem readUnder_renderIndented {g : Graph} {edgesName : Text} {v : Json} {limits : Json.Limits}
    (hname : edgesName = "edges" ∨ edgesName = "links") (h : Describes edgesName g.multigraph v)
    (hdepth : 3 ≤ limits.depth)
    (hdigits : Json.refuses limits.digits (Text.ofNat g.edgeCount) = false) :
    Json.readUnder limits v.renderIndented = .ok v := by
  obtain ⟨room, hroom⟩ := Nat.exists_eq_add_of_le' hdepth
  refine Json.readUnder_renderIndented ?_
  rw [hroom]
  exact readable_of_describes hname h hdigits

end NodeLink

/-! ### The exported file -/

namespace Graph

/-- The text of a node-link document is that of a value which the library made. -/
theorem exists_value_of_course {g : Graph} {w : World} {dotWriter : Bool} {filename text : Text}
    (hformat : (Export.target filename).1 = .nodeLink)
    (h : g.exportCourse w dotWriter filename = .opened text none) :
    ∃ v, w.host.library.nodeLink g.multigraph = .ok v ∧ text = v.renderIndented := by
  rw [exportCourse, hformat, Export.course] at h
  cases hvalue : w.host.library.nodeLink g.multigraph with
  | error f => simp [hvalue] at h
  | ok v =>
    rw [hvalue] at h
    exact ⟨v, rfl, (Course.opened.inj h).1.symm⟩

/-- **A node-link file holds the graph**, if the library writes node-link values as it is documented.

Whenever a graph that operations reach is exported as node-link JSON, the file holds a text, in
UTF-8, that every reader of JSON decodes which can open three levels and take a numeral for the number
of includes. The value has a node for every item, in the order in which the items were made, with its
key, path and label. It has as many arcs as there are includes, all from one file of the graph to
another; and for every key, the arcs from it spell out its include list. -/
theorem nodeLink_export_holds_graph (ops : List Operation) (g : Graph) (h : Reached ops g)
    (w : World) (hlibrary : w.host.library.WritesNodeLink) (p : Palette) (dotWriter : Bool)
    (filename : Text) (hformat : (Export.target filename).1 = .nodeLink)
    (hwritten : (g.exportTo w p dotWriter filename).written = true) :
    ∃ text nodes arcs,
      (g.exportTo w p dotWriter filename).world.bytes? filename = some (Utf8.encode text) ∧
      Utf8.strict (Utf8.encode text) = .ok text ∧
      (∀ limits : Json.Limits, 3 ≤ limits.depth →
        Json.refuses limits.digits (Text.ofNat g.edgeCount) = false →
        ∃ v, Json.readUnder limits text = .ok v ∧ NodeLink.nodes? v = some nodes ∧
          NodeLink.arcs? w.host.library.edgesName v = some arcs) ∧
      nodes = g.items.map (fun i => ⟨i.key, i.path, i.label⟩) ∧
      arcs.length = g.edgeCount ∧
      (∀ a ∈ arcs, ∃ i ∈ g.items, ∃ j ∈ g.items, a.source = i.key ∧ a.target = j.key) ∧
      ∀ key includes, (key, includes) ∈ g.adjacency →
        Arc.SpellOut (arcs.filter fun a => a.source = key) includes := by
  have hwell := h.wellFormed
  obtain ⟨text, hcourse, hbytes⟩ := exists_text_of_written hwritten
  rw [Export.name_target (by simp [hformat])] at hbytes
  obtain ⟨v, hvalue, rfl⟩ := exists_value_of_course hformat hcourse
  have hdescribes := hlibrary.value _ v (wellFormed_multigraph hwell) hvalue
  obtain ⟨hnodes, arcs, hperm, harcs⟩ := NodeLink.exists_arcs?_of_describes hlibrary.name hdescribes
  obtain ⟨hlength, hends, hspelt⟩ := holds_of_perm hwell hperm
  refine ⟨_, _, arcs, hbytes, Utf8.strict_encode _, fun limits hdepth hdigits =>
      ⟨v, NodeLink.readUnder_renderIndented hlibrary.name hdescribes hdepth hdigits, hnodes, harcs⟩,
    rfl, hlength, hends, fun key includes hmem => ?_⟩
  -- what is left is the entry of one item, whose arcs are those with its key for a source
  obtain ⟨i, hi, hentry⟩ := List.mem_map.mp hmem
  obtain ⟨rfl, rfl⟩ := Prod.mk.inj hentry
  exact hspelt i hi

/-- A file that includes another one twice and itself in between; the other one has a name that has
to be escaped, with a character that takes two escapes. -/
theorem nodeLink_export_holds_graph_parallel :
    let view : FileView := ⟨['/'], fun _ => false⟩
    let w : World := ⟨['/'], [], [], [], [], [], [], [], [], .standard⟩
    let ops : List Operation := [.create view ['A'], .create view ['"', '\n', '😀'],
      .connect ['/', 'a'] ['/', '"', '\n', '😀'], .connect ['/', 'a'] ['/', 'a'],
      .connect ['/', 'a'] ['/', '"', '\n', '😀']]
    ∃ g, Reached ops g ∧ ∃ text v nodes arcs,
      (g.exportTo w .plain false "o.json".toList).world.bytes? "o.json".toList =
        some (Utf8.encode text) ∧
      Json.read text = .ok v ∧ NodeLink.nodes? v = some nodes ∧ NodeLink.arcs? "edges" v = some arcs ∧
      nodes = [⟨['/', 'a'], ['/', 'A'], ['A']⟩,
        ⟨['/', '"', '\n', '😀'], ['/', '"', '\n', '😀'], ['"', '\n', '😀']⟩] ∧
      Arc.SpellOut (arcs.filter fun a => a.source = ['/', 'a'])
        [['/', '"', '\n', '😀'], ['/', 'a'], ['/', '"', '\n', '😀']] := by
  intro view w ops
  have hreached := ((((Reached.nil.snoc (.create view ['A']) trivial).snoc
    (.create view ['"', '\n', '😀']) trivial).snoc
    (.connect ['/', 'a'] ['/', '"', '\n', '😀']) ⟨by decide +kernel, by decide +kernel⟩).snoc
    (.connect ['/', 'a'] ['/', 'a']) ⟨by decide +kernel, by decide +kernel⟩).snoc
    (.connect ['/', 'a'] ['/', '"', '\n', '😀']) ⟨by decide +kernel, by decide +kernel⟩
  obtain ⟨text, nodes, arcs, hbytes, -, hread, hnodes, -, -, hincludes⟩ :=
    nodeLink_export_holds_graph ops _ hreached w Library.standard_writesNodeLink .plain false
      "o.json".toList (by decide +kernel) (by decide +kernel)
  obtain ⟨v, hv, hv₁, hv₂⟩ := hread ⟨Json.maxDepth, some Numeral.maxDigits⟩ (by decide)
    (by decide +kernel)
  refine ⟨_, hreached, text, v, nodes, arcs, hbytes, hv, hv₁, hv₂, ?_, hincludes _ _ ?_⟩
  · rw [hnodes]
    decide +kernel
  · decide +kernel

end Graph

end IncludeTrace
