import IncludeTrace.Graph.Multigraph
import IncludeTrace.Proofs.Graph.History
import Mathlib.Data.List.Nodup
import Mathlib.Data.List.Perm.Basic

/-!
# What arcs keep of a graph

A multigraph has an edge for every include, with its place in the include list of its source. Libraries
may list the arcs in any order, so an include list is not read off them as they come; it has to be put
together from the places that they carry in `order`. This module shows that nothing is lost on the way
(`Graph.holds_of_perm`). The arcs with the key of an item for a source have every place in its
include list once, and each of them leads to what stands there; hence, sorted by place, they spell the
list out. Those with one target are numbered through (`Multigraph.copy_arcs`).

The multigraph of a graph that is well-formed is so itself (`Graph.wellFormed_multigraph`): its nodes
have distinct names, and its edges lead from node to node. It has as many arcs as the graph has includes
(`Graph.length_arcs_multigraph`). Grouping arcs puts them into another order, and does nothing else
(`Multigraph.groupedArcs_perm`).
-/

namespace IncludeTrace

/-- Of lists behind each other whose entries are tagged by distinct names, the tag picks one list. -/
theorem filter_flatMap_of_tagged {α β γ : Type} [DecidableEq γ] (block : α → List β) (name : α → γ)
    (tag : β → γ) {l : List α} (htag : ∀ x ∈ l, ∀ b ∈ block x, tag b = name x)
    (hn : (l.map name).Nodup) {x : α} (hx : x ∈ l) :
    (l.flatMap block).filter (fun b => tag b = name x) = block x := by
  have hself : ∀ y ∈ l, name y = name x → (block y).filter (fun b => tag b = name x) = block y := by
    intro y hy hname
    refine List.filter_eq_self.mpr fun b hb => ?_
    simpa [hname] using htag y hy b hb
  have hother : ∀ y ∈ l, name y ≠ name x → (block y).filter (fun b => tag b = name x) = [] := by
    intro y hy hname
    refine List.filter_eq_nil_iff.mpr fun b hb => ?_
    simpa [htag y hy b hb] using hname
  induction l with
  | nil => cases hx
  | cons y rest ih =>
    rw [List.map_cons, List.nodup_cons] at hn
    rw [List.flatMap_cons, List.filter_append]
    rcases List.mem_cons.mp hx with rfl | hx
    · -- no later list has the name of the first one
      have hrest : (rest.flatMap block).filter (fun b => tag b = name x) = [] := by
        rw [List.filter_flatMap, List.flatMap_eq_nil_iff]
        intro z hz
        exact hother z (List.mem_cons_of_mem _ hz) fun e => hn.1 (e ▸ List.mem_map_of_mem hz)
      rw [hself x List.mem_cons_self rfl, hrest, List.append_nil]
    · have hne : name y ≠ name x := fun e => hn.1 (e ▸ List.mem_map_of_mem hx)
      rw [hother y List.mem_cons_self hne, List.nil_append]
      exact ih (fun z hz => htag z (List.mem_cons_of_mem _ hz)) hn.2 hx
        (fun z hz => hself z (List.mem_cons_of_mem _ hz))
        (fun z hz => hother z (List.mem_cons_of_mem _ hz))

/-- The groups of a list by the tags of its entries have all its entries, if every tag is the name of
one group. -/
theorem flatMap_filter_perm {β γ : Type} [DecidableEq γ] (tag : β → γ) {names : List γ}
    (hn : names.Nodup) {l : List β} (htag : ∀ b ∈ l, tag b ∈ names) :
    (names.flatMap fun name => l.filter fun b => tag b = name).Perm l := by
  induction names generalizing l with
  | nil =>
    rw [List.eq_nil_iff_forall_not_mem.mpr fun b hb => List.not_mem_nil (htag b hb)]
    exact .refl _
  | cons name names ih =>
    rw [List.nodup_cons] at hn
    let others := l.filter fun b => !decide (tag b = name)
    have hgroups : (names.flatMap fun name => l.filter fun b => tag b = name) =
        names.flatMap fun name => others.filter fun b => tag b = name := by
      refine List.flatMap_congr fun name' hname' => ?_
      rw [List.filter_filter]
      refine List.filter_congr fun b _ => ?_
      by_cases htag' : tag b = name'
      · simpa [htag'] using fun e : name' = name => hn.1 (e ▸ hname')
      · simp [htag']
    have hothers : ∀ b ∈ others, tag b ∈ names := by
      intro b hb
      obtain ⟨hmem, hne⟩ := List.mem_filter.mp hb
      exact (List.mem_cons.mp (htag b hmem)).resolve_left (by simpa using hne)
    rw [List.flatMap_cons, hgroups]
    exact ((ih hn.2 hothers).append_left _).trans (List.filter_append_perm _ l)

@[simp]
theorem mem_distinct {t : Text} {l : List Text} : t ∈ distinct l ↔ t ∈ l := by
  induction l with
  | nil => simp [distinct]
  | cons s rest ih =>
    rw [distinct, List.mem_cons, List.mem_filter, ih, List.mem_cons]
    by_cases h : t = s <;> simp [h]

theorem nodup_distinct (l : List Text) : (distinct l).Nodup := by
  induction l with
  | nil => exact List.nodup_nil
  | cons t rest ih => exact List.nodup_cons.mpr ⟨by simp, ih.filter _⟩

/-- A text that occurred before makes no difference, a new one comes last. -/
theorem distinct_concat (l : List Text) (t : Text) :
    distinct (l ++ [t]) = if t ∈ l then distinct l else distinct l ++ [t] := by
  induction l with
  | nil => rfl
  | cons s rest ih =>
    rw [List.cons_append, distinct, ih, distinct]
    by_cases hrest : t ∈ rest
    · rw [if_pos hrest, if_pos (List.mem_cons_of_mem s hrest)]
    · rw [if_neg hrest, List.filter_append]
      by_cases hfirst : t = s <;> simp [hfirst, hrest]

/-! ### Spelling out an include list -/

namespace Arc

/-- Arcs in the order of the places that they carry. -/
def byOrder (arcs : List Arc) : List Arc := arcs.mergeSort fun a b => a.order ≤ b.order

/-- Arcs **spell out** an include list if they carry every place of it once, lead to what stands
there, and are numbered through where they have one target. -/
structure SpellOut (arcs : List Arc) (includes : List Text) : Prop where
  orders : (arcs.map Arc.order).Perm (List.range includes.length)
  targets : (byOrder arcs).map Arc.target = includes
  copies : ∀ target, ((arcs.filter fun a => a.target = target).map Arc.copy).Perm
    (List.range (includes.count target))

variable {arcs : List Arc} {includes : List Text}

/-- **Sorted by place, the targets of arcs are the include list**, if the arcs carry every place once
and lead to what stands there. -/
theorem target_byOrder (horders : (arcs.map Arc.order).Perm (List.range includes.length))
    (hplaces : ∀ a ∈ arcs, includes[a.order]? = some a.target) :
    (byOrder arcs).map Arc.target = includes := by
  have hperm : (byOrder arcs).Perm arcs := List.mergeSort_perm _ _
  have hsorted : ((byOrder arcs).map Arc.order).Pairwise (· ≤ ·) := by
    rw [List.pairwise_map]
    refine (List.pairwise_mergeSort (fun a b c hab hbc => ?_) (fun a b => ?_) arcs).imp
      fun h => of_decide_eq_true h
    · simp only [decide_eq_true_eq] at hab hbc ⊢
      exact Nat.le_trans hab hbc
    · simp only [Bool.or_eq_true, decide_eq_true_eq]
      exact Nat.le_total a.order b.order
  -- both sides are in ascending order and have the same places
  have horder : (byOrder arcs).map Arc.order = List.range includes.length :=
    List.Perm.eq_of_pairwise (fun _ _ _ _ => Nat.le_antisymm) hsorted
      (List.pairwise_lt_range.imp Nat.le_of_lt) ((hperm.map _).trans horders)
  have hplace : (byOrder arcs).map (fun a => some a.target) = includes.map some := by
    calc (byOrder arcs).map (fun a => some a.target)
        = (byOrder arcs).map fun a => includes[a.order]? :=
          List.map_congr_left fun a ha => (hplaces a (hperm.mem_iff.mp ha)).symm
      _ = ((byOrder arcs).map Arc.order).map fun n => includes[n]? := by
          rw [List.map_map]
          rfl
      _ = includes.map some := by
          rw [horder]
          refine List.ext_getElem (by simp) fun n _ h => ?_
          simp only [List.length_map] at h
          simp [List.getElem?_eq_getElem h]
  refine List.map_injective_iff.mpr (fun _ _ => Option.some.inj) ?_
  rw [List.map_map]
  exact hplace

/-- The edge that an arc numbers. -/
def edge (a : Arc) : Multigraph.Edge := ⟨a.source, a.target, a.order⟩

end Arc

namespace Multigraph

/-! ### The arcs of a multigraph -/

variable {m : Multigraph} {before es : List Edge} {source target : Text} {a : Arc}

/-- A multigraph is **well-formed** if the names of its nodes are distinct and its edges lead from node
to node. -/
structure WellFormed (m : Multigraph) : Prop where
  nodup : (m.nodes.map Node.id).Nodup
  closed : ∀ e ∈ m.edges, e.source ∈ m.nodes.map Node.id ∧ e.target ∈ m.nodes.map Node.id

/-- Whether an edge leads from one node to another. -/
def Edge.isBetween (source target : Text) (e : Edge) : Bool := e.source = source && e.target = target

theorem map_edge_numberFrom : (numberFrom before es).map Arc.edge = es := by
  induction es generalizing before with
  | nil => rfl
  | cons e rest ih => rw [numberFrom, List.map_cons, ih, Arc.edge]

/-- **Arcs are numbered edges.** -/
theorem map_edge_arcs (m : Multigraph) : m.arcs.map Arc.edge = m.edges := map_edge_numberFrom

theorem length_arcs (m : Multigraph) : m.arcs.length = m.edges.length := by
  rw [← m.map_edge_arcs, List.length_map]

theorem edge_mem_edges (h : a ∈ m.arcs) : a.edge ∈ m.edges := by
  rw [← m.map_edge_arcs]
  exact List.mem_map_of_mem h

/-- Arcs lead from node to node. -/
theorem exists_of_mem_arcs (h : m.WellFormed) (ha : a ∈ m.arcs) :
    ∃ n ∈ m.nodes, ∃ n' ∈ m.nodes, a.source = n.id ∧ a.target = n'.id := by
  obtain ⟨hsource, htarget⟩ := h.closed _ (edge_mem_edges ha)
  obtain ⟨n, hn, hid⟩ := List.mem_map.mp hsource
  obtain ⟨n', hn', hid'⟩ := List.mem_map.mp htarget
  exact ⟨n, hn, n', hn', hid.symm, hid'.symm⟩

theorem copy_numberFrom :
    ((numberFrom before es).filter fun a => a.edge.isBetween source target).map Arc.copy =
      List.range' (before.countP (Edge.isBetween source target))
        (es.countP (Edge.isBetween source target)) := by
  induction es generalizing before with
  | nil => rfl
  | cons e rest ih =>
    rw [numberFrom, List.countP_cons]
    by_cases h : e.isBetween source target = true
    · obtain ⟨rfl, rfl⟩ : e.source = source ∧ e.target = target := by simpa [Edge.isBetween] using h
      have hparallel : e.isParallel = Edge.isBetween e.source e.target := by
        funext f
        simp [Edge.isParallel, Edge.isBetween, eq_comm]
      rw [List.filter_cons_of_pos (by exact h), List.map_cons, ih, List.countP_cons, if_pos h,
        List.range'_succ, hparallel]
    · rw [List.filter_cons_of_neg (by exact h), ih, List.countP_cons, if_neg h]
      rfl

/-- **Parallel arcs are numbered through.** -/
theorem copy_arcs (m : Multigraph) (source target : Text) :
    (m.arcs.filter fun a => a.edge.isBetween source target).map Arc.copy =
      List.range (m.edges.countP (Edge.isBetween source target)) := by
  rw [arcs, copy_numberFrom, List.range_eq_range']
  rfl

/-- The number of an arc is smaller than the number of edges. -/
theorem copy_lt (h : a ∈ m.arcs) : a.copy < m.edges.length := by
  have hbetween : a ∈ m.arcs.filter fun b => b.edge.isBetween a.source a.target :=
    List.mem_filter.mpr ⟨h, by simp [Edge.isBetween, Arc.edge]⟩
  have hcopy := List.mem_map_of_mem (f := Arc.copy) hbetween
  rw [copy_arcs, List.mem_range] at hcopy
  exact Nat.lt_of_lt_of_le hcopy List.countP_le_length

theorem byTarget_perm (arcs : List Arc) : (byTarget arcs).Perm arcs :=
  flatMap_filter_perm Arc.target (nodup_distinct _) fun _ ha =>
    mem_distinct.mpr (List.mem_map_of_mem ha)

/-- **Grouping puts the arcs into another order.** -/
theorem groupedArcs_perm (h : m.WellFormed) : m.groupedArcs.Perm m.arcs := by
  have hgroups : m.groupedArcs = (m.nodes.map Node.id).flatMap fun id =>
      byTarget (m.arcs.filter fun a => a.source = id) := by
    rw [List.flatMap_map]
    rfl
  rw [hgroups]
  exact (List.Perm.flatMap_left _ fun id _ => byTarget_perm _).trans
    (flatMap_filter_perm Arc.source h.nodup fun a ha => (h.closed _ (edge_mem_edges ha)).1)

end Multigraph

/-! ### The multigraph of a graph -/

namespace Item

variable {i : Item}

theorem of_mem_edges {e : Multigraph.Edge} (h : e ∈ i.edges) :
    e.source = i.key ∧ i.includes[e.order]? = some e.target := by
  obtain ⟨⟨target, n⟩, hplace, rfl⟩ := List.mem_map.mp h
  exact ⟨rfl, List.mk_mem_zipIdx_iff_getElem?.mp hplace⟩

theorem length_edges (i : Item) : i.edges.length = i.includes.length := by
  rw [edges, List.length_map, List.length_zipIdx]

/-- The edges of an item carry the places of its include list, in order. -/
theorem order_edges (i : Item) : i.edges.map Multigraph.Edge.order = List.range i.includes.length := by
  rw [edges, List.map_map, List.range_eq_range']
  exact List.zipIdx_map_snd 0 _

/-- Their targets are the include list. -/
theorem target_edges (i : Item) : i.edges.map Multigraph.Edge.target = i.includes := by
  rw [edges, List.map_map]
  exact List.zipIdx_map_fst 0 _

end Item

namespace Graph

variable {g : Graph} {i : Item} {arcs : List Arc}

theorem ids_multigraph (g : Graph) : g.multigraph.nodes.map Multigraph.Node.id = g.keys := by
  rw [multigraph, List.map_map]
  rfl

/-- **The multigraph of a well-formed graph is well-formed.** -/
theorem wellFormed_multigraph (h : g.WellFormed) : g.multigraph.WellFormed where
  nodup := by
    rw [ids_multigraph]
    exact h.nodup
  closed := by
    intro e he
    obtain ⟨i, hi, he⟩ := List.mem_flatMap.mp he
    obtain ⟨hsource, hplace⟩ := Item.of_mem_edges he
    rw [ids_multigraph, hsource]
    exact ⟨List.mem_map_of_mem hi,
      has_iff_mem_keys.mp (h.closed i hi _ (List.mem_of_getElem? hplace))⟩

/-- There is one edge for every include. -/
theorem length_edges_multigraph (g : Graph) : g.multigraph.edges.length = g.edgeCount := by
  obtain ⟨items⟩ := g
  induction items with
  | nil => rfl
  | cons i rest ih =>
    rw [multigraph, List.flatMap_cons, List.length_append, i.length_edges]
    exact congrArg (i.includes.length + ·) ih

/-- **There is one arc for every include.** -/
theorem length_arcs_multigraph (g : Graph) : g.multigraph.arcs.length = g.edgeCount :=
  g.multigraph.length_arcs.trans g.length_edges_multigraph

/-- The edges of an item are those with its key for a source. -/
theorem edges_of_source (hn : g.keys.Nodup) (hi : i ∈ g.items) :
    (g.multigraph.edges.filter fun e => e.source = i.key) = i.edges :=
  filter_flatMap_of_tagged Item.edges Item.key Multigraph.Edge.source
    (fun _ _ _ he => (Item.of_mem_edges he).1) hn hi

/-- Arcs connect items of the graph. -/
theorem exists_of_mem_arcs (h : g.WellFormed) {a : Arc} (ha : a ∈ g.multigraph.arcs) :
    ∃ i ∈ g.items, ∃ j ∈ g.items, a.source = i.key ∧ a.target = j.key := by
  obtain ⟨n, hn, n', hn', hsource, htarget⟩ :=
    Multigraph.exists_of_mem_arcs (wellFormed_multigraph h) ha
  obtain ⟨i, hi, rfl⟩ := List.mem_map.mp hn
  obtain ⟨j, hj, rfl⟩ := List.mem_map.mp hn'
  exact ⟨i, hi, j, hj, hsource, htarget⟩

/-- The numbers that arcs carry are smaller than the number of includes. -/
theorem lt_edgeCount_of_mem_arcs {a : Arc} (ha : a ∈ g.multigraph.arcs) :
    a.order < g.edgeCount ∧ a.copy < g.edgeCount := by
  obtain ⟨i, hi, he⟩ := List.mem_flatMap.mp (Multigraph.edge_mem_edges ha)
  have horder := (List.getElem?_eq_some_iff.mp (Item.of_mem_edges he).2).1
  have hle : i.edges.length ≤ g.multigraph.edges.length := by
    rw [multigraph, List.flatMap_def]
    exact (List.sublist_flatten_of_mem (List.mem_map_of_mem hi)).length_le
  have hcopy := Multigraph.copy_lt ha
  rw [length_edges_multigraph] at hle hcopy
  rw [Item.length_edges] at hle
  exact ⟨Nat.lt_of_lt_of_le horder hle, hcopy⟩

/-- **In whatever order the arcs of a graph come, those of an item spell out its include list.** -/
theorem spellOut_of_perm (hn : g.keys.Nodup) (harcs : arcs.Perm g.multigraph.arcs) (hi : i ∈ g.items) :
    Arc.SpellOut (arcs.filter fun a => a.source = i.key) i.includes := by
  have hperm := harcs.filter fun a => a.source = i.key
  -- without their numbers, the arcs of the item are its edges
  have hedges : (g.multigraph.arcs.filter fun a => a.source = i.key).map Arc.edge = i.edges := by
    rw [← edges_of_source hn hi, ← g.multigraph.map_edge_arcs, List.filter_map]
    rfl
  have horders : ((arcs.filter fun a => a.source = i.key).map Arc.order).Perm
      (List.range i.includes.length) := by
    rw [← i.order_edges, ← hedges, List.map_map]
    exact hperm.map Arc.order
  have hplaces : ∀ a ∈ arcs.filter fun a => a.source = i.key, i.includes[a.order]? = some a.target := by
    intro a ha
    have hedge := List.mem_map_of_mem (f := Arc.edge) (hperm.mem_iff.mp ha)
    rw [hedges] at hedge
    exact (Item.of_mem_edges hedge).2
  refine ⟨horders, Arc.target_byOrder horders hplaces, fun target => ?_⟩
  have hbetween : ((g.multigraph.arcs.filter fun a => a.source = i.key).filter
      fun a => a.target = target) =
        g.multigraph.arcs.filter fun a => a.edge.isBetween i.key target := by
    rw [List.filter_filter]
    refine List.filter_congr fun a _ => ?_
    exact Bool.and_comm _ _
  have hcount : g.multigraph.edges.countP (Multigraph.Edge.isBetween i.key target) =
      i.includes.count target := by
    calc g.multigraph.edges.countP (Multigraph.Edge.isBetween i.key target)
        = (g.multigraph.edges.filter fun e => e.source = i.key).countP fun e => e.target = target := by
          rw [List.countP_filter]
          refine List.countP_congr fun e _ => ?_
          simp [Multigraph.Edge.isBetween, and_comm]
      _ = (i.edges.map Multigraph.Edge.target).count target := by
          rw [edges_of_source hn hi, List.count, List.countP_map]
          refine List.countP_congr fun e _ => ?_
          simp
      _ = i.includes.count target := by rw [i.target_edges]
  rw [← hcount, ← Multigraph.copy_arcs, ← hbetween]
  exact (hperm.filter _).map _

/-- **Arcs that come in any order hold the includes of a graph**: there are as many of them, they lead from
item to item, and those of an item spell out its include list. -/
theorem holds_of_perm (h : g.WellFormed) (harcs : arcs.Perm g.multigraph.arcs) :
    arcs.length = g.edgeCount ∧
      (∀ a ∈ arcs, ∃ i ∈ g.items, ∃ j ∈ g.items, a.source = i.key ∧ a.target = j.key) ∧
      ∀ i ∈ g.items, Arc.SpellOut (arcs.filter fun a => a.source = i.key) i.includes :=
  ⟨harcs.length_eq.trans g.length_arcs_multigraph,
    fun _ ha => exists_of_mem_arcs h (harcs.mem_iff.mp ha), fun _ hi => spellOut_of_perm h.nodup harcs hi⟩

end Graph

end IncludeTrace
