import IncludeTrace.Proofs.Graph.Outline
import Mathlib.Algebra.GroupWithZero.Nat

/-!
# What an outline shows

A file leads to another one by a chain of includes (`Graph.Leads`), and it reaches what it leads to by
some chain. The rows of an outline are compared with these chains. A row stands as deep as some chain is
long that leads to its file (`Graph.leads_of_mem_outline`), and every include of a file that was opened
has a row of its own (`Graph.count_edges_outline`).

Without a limit every file is opened where it is drawn for the first time. Then what is drawn is closed
under includes, so it is what the root reaches, and `Graph.treeLines_draws_reached` counts the lines.
-/

namespace IncludeTrace

open Drawing

namespace Graph

variable {g : Graph} {limit : Int} {root start key child : Text} {n : ℕ}

/-! ### Chains of includes -/

/-- A file **leads** to another one by a chain of `n` includes. -/
inductive Leads (g : Graph) (start : Text) : ℕ → Text → Prop
  | start : g.Leads start 0 start
  | step {n : ℕ} {key child : Text} :
      g.Leads start n key → child ∈ g.includesOf key → g.Leads start (n + 1) child

/-- A file **reaches** another one if it leads to it by some chain. -/
def Reaches (g : Graph) (start key : Text) : Prop := ∃ n, g.Leads start n key

theorem Reaches.step (h : g.Reaches start key) (hchild : child ∈ g.includesOf key) :
    g.Reaches start child :=
  let ⟨n, hn⟩ := h
  ⟨n + 1, hn.step hchild⟩

/-- What a file of a well-formed graph reaches is in the graph. -/
theorem Reaches.has (hg : g.WellFormed) (hstart : g.has start) (h : g.Reaches start key) :
    g.has key := by
  obtain ⟨n, hn⟩ := h
  cases hn with
  | start => exact hstart
  | step _ hchild => exact has_of_mem_includesOf hg hchild

open Classical in
/-- The items that a file reaches. -/
noncomputable def reached (g : Graph) (start : Text) : List Item :=
  g.items.filter fun i => g.Reaches start i.key

theorem mem_reached {i : Item} : i ∈ g.reached start ↔ i ∈ g.items ∧ g.Reaches start i.key := by
  simp [reached]

theorem reached_eq_items (h : ∀ i ∈ g.items, g.Reaches start i.key) : g.reached start = g.items := by
  simpa [reached] using h

end Graph

/-! ### Includes one by one -/

namespace Drawing

variable {g : Graph} {limit : Int} {parent child key : Text} {place n : ℕ} {children : List Text}
  {rows : List Row}

theorem mem_edgesFrom : (key, n, child) ∈ edgesFrom parent place children ↔
    key = parent ∧ ∃ i, n = place + i ∧ children[i]? = some child := by
  induction children generalizing place with
  | nil => simp [edgesFrom]
  | cons first rest ih =>
    rw [edgesFrom, List.mem_cons, ih, Prod.mk.injEq, Prod.mk.injEq]
    constructor
    · rintro (⟨rfl, rfl, rfl⟩ | ⟨rfl, i, rfl, hi⟩)
      · exact ⟨rfl, 0, rfl, rfl⟩
      · exact ⟨rfl, i + 1, by omega, hi⟩
    · rintro ⟨rfl, _ | i, rfl, hi⟩
      · exact .inl ⟨rfl, rfl, (Option.some.inj hi).symm⟩
      · exact .inr ⟨rfl, i, by omega, hi⟩

theorem mem_edgesOf : (key, n, child) ∈ edgesOf g parent ↔
    key = parent ∧ (g.includesOf parent)[n]? = some child := by
  simp [edgesOf, mem_edgesFrom]

theorem nodup_edgesFrom (parent : Text) (place : ℕ) (children : List Text) :
    (edgesFrom parent place children).Nodup := by
  induction children generalizing place with
  | nil => exact List.nodup_nil
  | cons first rest ih =>
    refine List.nodup_cons.mpr ⟨fun hmem => ?_, ih (place + 1)⟩
    obtain ⟨-, i, hi, -⟩ := mem_edgesFrom.mp hmem
    omega

theorem length_edgesFrom (parent : Text) (place : ℕ) (children : List Text) :
    (edgesFrom parent place children).length = children.length := by
  induction children generalizing place with
  | nil => rfl
  | cons first rest ih => rw [edgesFrom, List.length_cons, ih, List.length_cons]

/-- The includes of several files are distinct if the files are. -/
theorem nodup_flatMap_edgesOf {files : List Text} (h : files.Nodup) :
    (files.flatMap (edgesOf g)).Nodup := by
  refine List.nodup_flatMap.mpr ⟨fun key _ => nodup_edgesFrom key 0 _, h.imp fun {a b} hne => ?_⟩
  rintro ⟨key, n, child⟩ ha hb
  exact hne ((mem_edgesOf.mp ha).1.symm.trans (mem_edgesOf.mp hb).1)

theorem opened_sublist (limit : Int) (rows : List Row) :
    (opened limit rows).Sublist (firsts rows) := by
  have hfilter : rows.filter (fun r => !r.again && opens limit r.depth) =
      (rows.filter fun r => !r.again).filter fun r => opens limit r.depth := by
    rw [List.filter_filter]
    exact List.filter_congr fun r _ => Bool.and_comm _ _
  rw [opened, hfilter]
  exact List.filter_sublist.map _

/-- Without a limit every file is opened where it is drawn for the first time. -/
theorem opened_eq_firsts (hlimit : limit ≤ 0) (rows : List Row) : opened limit rows = firsts rows := by
  simp [opened, firsts, opens, hlimit]

/-- A row stands as deep as a chain of includes is long that leads to its file, if this holds of the
files that are to be drawn. -/
theorem leads_of_mem_expand {start : Text} {depth : ℕ} {met : Finset Text}
    (hchildren : ∀ child ∈ children, g.Leads start depth child) :
    ∀ r ∈ expand g limit parent depth place met children, g.Leads start r.depth r.key := by
  fun_induction expand g limit parent depth place met children with
  | case1 => exact List.forall_mem_nil _
  | case2 parent depth place met child rest hmet ih =>
    obtain ⟨hchild, hrest⟩ := List.forall_mem_cons.mp hchildren
    exact List.forall_mem_cons.mpr ⟨hchild, ih hrest⟩
  | case3 parent depth place met child rest hmet hopen below ihbelow ihbeside =>
    obtain ⟨hchild, hrest⟩ := List.forall_mem_cons.mp hchildren
    exact List.forall_mem_cons.mpr ⟨hchild, List.forall_mem_append.mpr
      ⟨ihbelow fun c hc => hchild.step hc, ihbeside hrest⟩⟩
  | case4 parent depth place met child rest hmet hcut ih =>
    obtain ⟨hchild, hrest⟩ := List.forall_mem_cons.mp hchildren
    exact List.forall_mem_cons.mpr ⟨hchild, ih hrest⟩

end Drawing

namespace Graph

variable {g : Graph} {limit : Int} {root key child : Text}

/-! ### The rows of an outline -/

theorem marks_outline : Marks {root} (g.outline limit root) := marks_expand

theorem nodup_firsts_outline : (root :: firsts (g.outline limit root)).Nodup := by
  have hmarks : Marks {root} (g.outline limit root) := marks_outline
  obtain ⟨hnodup, hnew⟩ := hmarks.nodup_firsts
  exact List.nodup_cons.mpr ⟨fun hmem => hnew root hmem (Finset.mem_singleton_self root), hnodup⟩

/-- A row of an outline stands as deep as the chain of includes is long that leads to it. -/
theorem leads_of_mem_outline {r : Row} (h : r ∈ g.outline limit root) :
    g.Leads root r.depth r.key :=
  leads_of_mem_expand (fun _ hc => Leads.start.step hc) r h

/-- An outline shows the includes of the files that were opened, each of them once. -/
theorem perm_edges_outline : ((g.outline limit root).map Row.edge).Perm
    ((root :: opened limit (g.outline limit root)).flatMap (edgesOf g)) :=
  perm_edges_expand

/-- A row of an outline shows an include of its parent. -/
theorem include_of_mem_outline {r : Row} (h : r ∈ g.outline limit root) :
    (g.includesOf r.parent)[r.place]? = some r.key := by
  have hedge : r.edge ∈ (g.outline limit root).map Row.edge := List.mem_map_of_mem h
  obtain ⟨key, -, hmem⟩ := List.mem_flatMap.mp (perm_edges_outline.mem_iff.mp hedge)
  obtain ⟨hparent, hget⟩ := mem_edgesOf.mp hmem
  rwa [← hparent] at hget

/-- Each include of a file that was opened has one row. -/
theorem count_edges_outline {place : ℕ} (hkey : key ∈ root :: opened limit (g.outline limit root))
    (hchild : (g.includesOf key)[place]? = some child) :
    ((g.outline limit root).map Row.edge).count (key, place, child) = 1 := by
  have hnodup : (root :: opened limit (g.outline limit root)).Nodup :=
    nodup_firsts_outline.sublist ((opened_sublist limit _).cons_cons root)
  rw [perm_edges_outline.count_eq]
  exact List.count_eq_one_of_mem (nodup_flatMap_edgesOf hnodup)
    (List.mem_flatMap.mpr ⟨key, hkey, mem_edgesOf.mpr ⟨rfl, hchild⟩⟩)

/-- What was drawn was drawn for the first time somewhere. -/
theorem mem_firsts_outline (h : key ∈ keysOf (g.outline limit root)) :
    key ∈ root :: firsts (g.outline limit root) := by
  rcases marks_outline.mem_firsts h with hroot | hfirst
  · exact List.mem_cons.mpr (.inl (Finset.mem_singleton.mp hroot))
  · exact List.mem_cons_of_mem root hfirst

/-- What an opened file includes is drawn. -/
theorem mem_firsts_of_opened (hkey : key ∈ root :: opened limit (g.outline limit root))
    (hchild : child ∈ g.includesOf key) : child ∈ root :: firsts (g.outline limit root) := by
  obtain ⟨place, hplace⟩ := List.mem_iff_getElem?.mp hchild
  have hcount := count_edges_outline hkey hplace
  obtain ⟨r, hr, hedge⟩ := List.mem_map.mp (List.count_pos_iff.mp (hcount ▸ Nat.one_pos))
  obtain ⟨-, -, hchild⟩ : r.parent = key ∧ r.place = place ∧ r.key = child := by
    simpa [Row.edge] using hedge
  exact mem_firsts_outline (mem_keysOf.mpr ⟨r, hr, hchild⟩)

/-- **Without a limit, what is drawn is what the root reaches.** -/
theorem mem_firsts_iff_reaches (hlimit : limit ≤ 0) :
    key ∈ root :: firsts (g.outline limit root) ↔ g.Reaches root key := by
  constructor
  · intro h
    rcases List.mem_cons.mp h with rfl | h
    · exact ⟨0, .start⟩
    · obtain ⟨r, hr, rfl⟩ := List.mem_map.mp h
      exact ⟨r.depth, leads_of_mem_outline (List.mem_of_mem_filter hr)⟩
  · rintro ⟨n, hn⟩
    induction hn with
    | start => exact List.mem_cons_self
    | step _ hchild ih =>
      rw [← opened_eq_firsts hlimit] at ih
      exact mem_firsts_of_opened ih hchild

/-- The files that are drawn without a limit are those of the items that the root reaches. -/
theorem perm_firsts_reached (hg : g.WellFormed) (hroot : g.has root) (hlimit : limit ≤ 0) :
    (root :: firsts (g.outline limit root)).Perm ((g.reached root).map Item.key) := by
  have hnodup : ((g.reached root).map Item.key).Nodup := hg.nodup.sublist (List.filter_sublist.map _)
  refine (List.perm_ext_iff_of_nodup nodup_firsts_outline hnodup).mpr fun key => ?_
  rw [mem_firsts_iff_reaches hlimit]
  constructor
  · intro h
    obtain ⟨i, hi, rfl⟩ := List.mem_map.mp (has_iff_mem_keys.mp (h.has hg hroot))
    exact List.mem_map_of_mem (mem_reached.mpr ⟨hi, h⟩)
  · intro h
    obtain ⟨i, hi, rfl⟩ := List.mem_map.mp h
    exact (mem_reached.mp hi).2

/-- Without a limit there is a row for each include of the items that the root reaches. -/
theorem length_outline (hg : g.WellFormed) (hroot : g.has root) (hlimit : limit ≤ 0) :
    (g.outline limit root).length = ((g.reached root).map fun i => i.includes.length).sum := by
  have hincludes : ∀ i ∈ g.reached root, (edgesOf g i.key).length = i.includes.length := by
    intro i hi
    rw [edgesOf, length_edgesFrom, includesOf, find?_key_of_mem hg.nodup (mem_reached.mp hi).1]
  have hperm := (perm_firsts_reached hg hroot hlimit).flatMap_right (edgesOf g)
  calc (g.outline limit root).length
      = ((root :: firsts (g.outline limit root)).flatMap (edgesOf g)).length := by
        rw [← opened_eq_firsts hlimit, ← perm_edges_outline.length_eq, List.length_map]
    _ = ((g.reached root).map fun i => (edgesOf g i.key).length).sum := by
        rw [hperm.length_eq, List.length_flatMap, List.map_map]
        rfl
    _ = ((g.reached root).map fun i => i.includes.length).sum :=
        congrArg List.sum (List.map_congr_left hincludes)

/-- **Drawing without a limit draws what the root reaches.**

The lines of the tree of an item of a well-formed graph are its own path and the rows of its outline.
Besides the first, there is a line for each include of the items that it reaches. Each of these items is
drawn without the mark once. A row has the mark exactly if its file was drawn without it in front, and
it is indented by one more than the row that drew its parent without the mark. -/
theorem treeLines_draws_reached (g : Graph) (hg : g.WellFormed) (root : Item) (hroot : root ∈ g.items)
    (limit : Int) (hlimit : limit ≤ 0) (indent : Text) :
    let rows := g.outline limit root.key
    g.treeLines limit indent root = root.path :: rows.map (Row.text g indent) ∧
      (g.treeLines limit indent root).length =
        1 + ((g.reached root.key).map fun i => i.includes.length).sum ∧
      (root.key :: firsts rows).Perm ((g.reached root.key).map Item.key) ∧
      (∀ front r back, rows = front ++ r :: back →
        (r.again = true ↔ r.key ∈ root.key :: firsts front)) ∧
      ∀ front r back, rows = front ++ r :: back → r.parent = root.key ∧ r.depth = 1 ∨
        ∃ u ∈ front, u.again = false ∧ u.key = r.parent ∧ r.depth = u.depth + 1 := by
  intro rows
  have hlines := treeLines_eq_outline hg limit indent hroot
  have hhas : g.has root.key := has_iff_mem_keys.mpr (List.mem_map_of_mem hroot)
  refine ⟨hlines, ?_, perm_firsts_reached hg hhas hlimit, fun front r back hrows => ?_,
    fun front r back hrows => ?_⟩
  · rw [hlines, List.length_cons, List.length_map, length_outline hg hhas hlimit, Nat.add_comm]
  · have hmarks : Marks {root.key} (front ++ r :: back) := hrows ▸ marks_outline
    have hagain : r.again = true ↔ r.key ∈ {root.key} ∪ keysOf front :=
      marks_outline front r back hrows
    rw [hagain, Finset.mem_union, Finset.mem_singleton, List.mem_cons]
    -- what stands in front was drawn there for the first time, or was drawn before
    refine ⟨fun h => ?_, Or.imp_right fun h => ?_⟩
    · rcases h with h | h
      · exact .inl h
      · exact ((marks_append.mp hmarks).1.mem_firsts h).imp_left Finset.mem_singleton.mp
    · obtain ⟨u, hu, hkey⟩ := List.mem_map.mp h
      exact mem_keysOf.mpr ⟨u, List.mem_of_mem_filter hu, hkey⟩
  · rcases hangs_expand front r back hrows with hfirst | ⟨u, hu, hagain, -, hkey, hdepth⟩
    · exact .inl hfirst
    · exact .inr ⟨u, hu, hagain, hkey, hdepth⟩

/-- A header that is included twice, one that two files share, one that includes itself, and a cycle
through the root; an item that the root does not reach is not drawn. -/
theorem treeLines_draws_reached_cycle :
    let root : Item := ⟨['r'], ['R'], [['a'], ['b'], ['b']]⟩
    let g : Graph := ⟨[⟨['o'], ['O'], [['a']]⟩, root, ⟨['a'], ['A'], [['b'], ['a']]⟩,
      ⟨['b'], ['B'], [['r']]⟩]⟩
    g.WellFormed ∧ root ∈ g.items ∧ (-1 : Int) ≤ 0 ∧
      g.treeLines (-1) ['-'] root = ["R".toList, "-A".toList, "--B".toList,
        "---R (see above)".toList, "--A (see above)".toList, "-B (see above)".toList,
        "-B (see above)".toList] ∧
      7 = 1 + ((g.reached ['r']).map fun i => i.includes.length).sum := by
  intro root g
  have hg : g.WellFormed := ⟨by decide, by decide⟩
  have hroot : root ∈ g.items := by decide
  have hlimit : (-1 : Int) ≤ 0 := by decide
  obtain ⟨hlines, hlength, -⟩ := treeLines_draws_reached g hg root hroot (-1) hlimit ['-']
  have hrows : g.outline (-1) ['r'] = [⟨['r'], 0, 1, ['a'], false⟩, ⟨['a'], 0, 2, ['b'], false⟩,
      ⟨['b'], 0, 3, ['r'], true⟩, ⟨['a'], 1, 2, ['a'], true⟩, ⟨['r'], 1, 1, ['b'], true⟩,
      ⟨['r'], 2, 1, ['b'], true⟩] := by
    simp [g, root, outline, expand, opens, includesOf, find?, keysOf]
  have hdrawn : g.treeLines (-1) ['-'] root = ["R".toList, "-A".toList, "--B".toList,
      "---R (see above)".toList, "--A (see above)".toList, "-B (see above)".toList,
      "-B (see above)".toList] := by
    rw [hlines, hrows]
    decide +kernel
  exact ⟨hg, hroot, hlimit, hdrawn, by rw [← hlength, hdrawn]; rfl⟩

end Graph

end IncludeTrace
