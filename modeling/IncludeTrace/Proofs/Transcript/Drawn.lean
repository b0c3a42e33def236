import IncludeTrace.Proofs.Graph.Reached
import IncludeTrace.Proofs.Graph.History
import IncludeTrace.Proofs.Transcript.Independence
import IncludeTrace.Proofs.Transcript.Parents

/-!
# The tree of a merged transcript

A merge hangs each trace line on the translation unit or on a file of its own trail, so whatever it links
is reached from the unit (`Setting.reaches_of_mem_links`). Drawing the unit without a limit shows every
include of what is reached, and so every include that the merge has made
(`Graph.merge_is_drawn`). In a graph that was empty before there is nothing else to be drawn.
-/

namespace IncludeTrace

namespace Merge

variable {s : Setting} {g : Graph} {trail : List Text} {line : TraceLine} {lines : List TraceLine}

/-- **Links start at what the translation unit reaches**, in every graph where they were made. -/
theorem Setting.reaches_of_mem_links
    (hmade : ∀ l ∈ s.links trail lines, l.child s.view.cwd ∈ g.includesOf l.parent)
    (htrail : ∀ key ∈ s.root :: trail, g.Reaches s.root key) :
    ∀ l ∈ s.links trail lines, g.Reaches s.root l.parent := by
  induction lines generalizing trail with
  | nil => exact List.forall_mem_nil _
  | cons line rest ih =>
    rw [Setting.links] at hmade ⊢
    obtain ⟨hline, hrest⟩ := List.forall_mem_cons.mp hmade
    have hparent : g.Reaches s.root (s.parentOn trail line) := htrail _ (s.parentOn_mem trail line)
    refine List.forall_mem_cons.mpr ⟨hparent, ih hrest ?_⟩
    -- the trail of the line holds some of the files that were on it before, and its own
    obtain ⟨hroot, hbefore⟩ := List.forall_mem_cons.mp htrail
    refine List.forall_mem_cons.mpr ⟨hroot, List.forall_mem_append.mpr ⟨fun key hkey =>
      hbefore key (List.mem_of_mem_take hkey), List.forall_mem_singleton.mpr ?_⟩⟩
    exact hparent.step hline

end Merge

namespace Graph

open Merge Drawing

variable {g : Graph} {view : FileView} {t : Transcript} {key : Text}

/-- A transcript whose merge goes through starts directly. -/
theorem startsDirect_of_ok {stats : Stats}
    (h : (g.merge view t.unit t.directories t.marker t.text).verdict = .ok stats) :
    StartsDirect t.lines := by
  by_contra hd
  obtain ⟨fault, hfault⟩ := merge_fails_iff.mpr hd
  rw [h] at hfault
  cases hfault

/-- The includes that a merge has made start at what the translation unit reaches. -/
theorem reaches_of_mem_links (g : Graph) (view : FileView) (t : Transcript) :
    ∀ l ∈ t.links view, (g.merge view t.unit t.directories t.marker t.text).graph.Reaches
      (Path.key view.cwd t.unit) l.parent := by
  have hmade : ∀ l ∈ t.links view, l.child view.cwd ∈
      (g.merge view t.unit t.directories t.marker t.text).graph.includesOf l.parent := by
    intro l hl
    rw [includesOf_merge]
    exact List.mem_append_right _
      (List.mem_map_of_mem (List.mem_filter.mpr ⟨hl, decide_eq_true rfl⟩))
  by_cases hd : StartsDirect t.lines
  · rw [Transcript.links, if_pos hd] at hmade ⊢
    exact Setting.reaches_of_mem_links hmade (List.forall_mem_singleton.mpr ⟨0, .start⟩)
  · rw [Transcript.links, if_neg hd]
    exact List.forall_mem_nil _

theorem wellFormed_merge (hg : g.WellFormed) :
    (g.merge view t.unit t.directories t.marker t.text).graph.WellFormed :=
  (grows_merge g view t).wellFormed hg

/-- An include that is not among those from before the merge comes from a link. -/
theorem exists_link_of_getElem? {place : ℕ} {child : Text} (hplace : (g.includesOf key).length ≤ place)
    (hchild : ((g.merge view t.unit t.directories t.marker t.text).graph.includesOf key)[place]? =
      some child) : ∃ l ∈ t.links view, l.parent = key ∧ l.child view.cwd = child := by
  rw [includesOf_merge, List.getElem?_append_right hplace] at hchild
  obtain ⟨l, hl, rfl⟩ := List.mem_map.mp (List.mem_of_getElem? hchild)
  exact ⟨l, List.mem_of_mem_filter hl, by simpa using (List.mem_filter.mp hl).2, rfl⟩

/-- In a graph that was empty, the translation unit reaches all there is. -/
theorem reached_merge_empty (view : FileView) (t : Transcript) :
    let g := (empty.merge view t.unit t.directories t.marker t.text).graph
    g.reached (Path.key view.cwd t.unit) = g.items := by
  intro g
  refine reached_eq_items fun i hi => ?_
  have hhas : g.has i.key := has_iff_mem_keys.mpr (List.mem_map_of_mem hi)
  rcases (has_merge empty view t i.key).mp hhas with hempty | hunit | ⟨l, hl, hchild⟩
  · cases hempty
  · exact ⟨0, hunit ▸ .start⟩
  · rw [← hchild]
    refine (reaches_of_mem_links empty view t l hl).step ?_
    rw [includesOf_merge]
    exact List.mem_append_right _
      (List.mem_map_of_mem (List.mem_filter.mpr ⟨hl, decide_eq_true rfl⟩))

theorem sum_length_includes (g : Graph) :
    (g.items.map fun i => i.includes.length).sum = g.edgeCount := by
  rw [edgeCount, List.sum_eq_foldr, List.foldr_map]

/-- **The tree of a transcript shows all that was merged.**

Let a transcript be merged into a well-formed graph. Each include behind those that were there before
starts and ends at files that the translation unit reaches, and the tree of the unit has a row of its own
for it. If the graph was empty, the tree has one line more than the transcript has trace lines, and
every item is drawn without the mark once. -/
theorem merge_is_drawn (g : Graph) (hg : g.WellFormed) (view : FileView) (unit : Text)
    (directories : List Text) (marker text : Text) (indent : Text) (stats : Stats)
    (hok : (g.merge view unit directories marker text).verdict = .ok stats) :
    let g' := (g.merge view unit directories marker text).graph
    let root := Path.key view.cwd unit
    let rows := g'.outline 0 root
    ∃ item, g'.item? view.cwd unit = some item ∧
      g'.treeLines 0 indent item = item.path :: rows.map (Row.text g' indent) ∧
      (∀ r ∈ rows, (g'.includesOf r.parent)[r.place]? = some r.key) ∧
      (∀ key, g.includesOf key <+: g'.includesOf key) ∧
      (∀ key place child, (g.includesOf key).length ≤ place →
        (g'.includesOf key)[place]? = some child →
          g'.Reaches root key ∧ g'.Reaches root child ∧
            (rows.map Row.edge).count (key, place, child) = 1) ∧
      (g = empty → (g'.treeLines 0 indent item).length = 1 + stats.traceLines ∧
        (root :: firsts rows).Perm g'.keys) := by
  intro g' root rows
  let t : Transcript := ⟨unit, directories, marker, text⟩
  have hg' : g'.WellFormed := wellFormed_merge (t := t) hg
  have hhas : g'.has root := (has_merge g view t root).mpr (.inr (.inl rfl))
  obtain ⟨item, hitem⟩ := Option.isSome_iff_exists.mp hhas
  have hkey : item.key = root := key_of_find? hitem
  have hmem : item ∈ g'.items := List.mem_of_find?_eq_some hitem
  have hlines : g'.treeLines 0 indent item = item.path :: rows.map (Row.text g' indent) := by
    rw [treeLines_eq_outline hg' 0 indent hmem, hkey]
  refine ⟨item, hitem, hlines, fun r => include_of_mem_outline, fun key => ?_,
    fun key place child hplace hchild => ?_, ?_⟩
  · rw [includesOf_merge g view t]
    exact List.prefix_append _ _
  · obtain ⟨l, hl, rfl, -⟩ := exists_link_of_getElem? (t := t) hplace hchild
    have hparent : g'.Reaches root l.parent := reaches_of_mem_links g view t l hl
    have hopened : l.parent ∈ root :: opened 0 rows := by
      rw [opened_eq_firsts le_rfl]
      exact (mem_firsts_iff_reaches le_rfl).mpr hparent
    exact ⟨hparent, hparent.step (List.mem_of_getElem? hchild), count_edges_outline hopened hchild⟩
  · rintro rfl
    have hdirect : StartsDirect t.lines := startsDirect_of_ok (t := t) hok
    have hreached : g'.reached root = g'.items := reached_merge_empty view t
    have hread : stats.traceLines = t.lines.length := by
      rw [verdict_merge_of_startsDirect hdirect] at hok
      exact congrArg Stats.traceLines (Except.ok.inj hok).symm
    have hcount : g'.edgeCount = t.lines.length :=
      (edgeCount_merge_of_startsDirect wellFormed_empty.nodup hdirect).trans (Nat.zero_add _)
    have hperm := perm_firsts_reached hg' hhas le_rfl
    rw [hreached] at hperm
    refine ⟨?_, hperm⟩
    rw [hlines, List.length_cons, List.length_map, length_outline hg' hhas le_rfl, hreached,
      sum_length_includes, hcount, hread, Nat.add_comm]

/-- A header that includes itself and one that goes back to the unit; the mark stands where the
trace goes on and the tree does not. -/
theorem merge_is_drawn_cycle :
    let view : FileView := ⟨['/'], fun _ => false⟩
    let report := empty.merge view "/a".toList [] ['>'] ">/b\n> /b\n> /c\n>/c\n> /a".toList
    empty.WellFormed ∧ report.verdict = .ok ⟨5, 5, 5, 1⟩ ∧
      ∃ item, report.graph.item? ['/'] "/a".toList = some item ∧
      report.graph.treeLines 0 ['-'] item = ["/a".toList, "-/b".toList, "--/b (see above)".toList,
        "--/c".toList, "---/a (see above)".toList, "-/c (see above)".toList] ∧
      (report.graph.treeLines 0 ['-'] item).length = 1 + 5 := by
  intro view report
  have hok : report.verdict = .ok ⟨5, 5, 5, 1⟩ := by decide +kernel
  obtain ⟨item, hitem, hlines, -, -, -, hempty⟩ := merge_is_drawn empty wellFormed_empty view
    "/a".toList [] ['>'] ">/b\n> /b\n> /c\n>/c\n> /a".toList ['-'] ⟨5, 5, 5, 1⟩ hok
  let g : Graph := ⟨[⟨"/a".toList, "/a".toList, ["/b".toList, "/c".toList]⟩,
    ⟨"/b".toList, "/b".toList, ["/b".toList, "/c".toList]⟩, ⟨"/c".toList, "/c".toList, ["/a".toList]⟩]⟩
  have hgraph : report.graph = g := by decide +kernel
  have hkey : Path.key ['/'] "/a".toList = "/a".toList := by decide +kernel
  have hrows : g.outline 0 "/a".toList = [⟨"/a".toList, 0, 1, "/b".toList, false⟩,
      ⟨"/b".toList, 0, 2, "/b".toList, true⟩, ⟨"/b".toList, 1, 2, "/c".toList, false⟩,
      ⟨"/c".toList, 0, 3, "/a".toList, true⟩, ⟨"/a".toList, 1, 1, "/c".toList, true⟩] := by
    simp [g, outline, expand, opens, includesOf, find?, keysOf]
  obtain rfl : item = ⟨"/a".toList, "/a".toList, ["/b".toList, "/c".toList]⟩ :=
    Option.some.inj (hitem.symm.trans (by decide +kernel))
  refine ⟨wellFormed_empty, hok, _, hitem, hlines.trans ?_, (hempty rfl).1⟩
  change _ :: (report.graph.outline 0 (Path.key ['/'] "/a".toList)).map (Row.text report.graph ['-']) = _
  rw [hgraph, hkey, hrows]
  decide +kernel

end Graph

end IncludeTrace
