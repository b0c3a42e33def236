import IncludeTrace.Proofs.Graph.Forest
import IncludeTrace.Proofs.Transcript.Trail
import IncludeTrace.Proofs.Transcript.Written

/-!
# Trees there and back

An include tree may be written as a transcript, depth first and one report for each file below the
root, with the depth of the file as its indentation. Merging the transcript into the empty graph gives
the items of the tree and nothing else, and drawing the item of the root gives the tree again
(`Graph.treeLines_merge_written`). Noise between the reports and the choice of line ends play no part.

Depths are counted in three ways on this way round: a report of a root's own include has no space, its
trail has one key, and it is drawn at depth one. The middle count carries the proof: the reports of a
forest below the last key of a trail give the links below this key, and leave the trail as it was up
to it (`Setting.links_reports`).
-/

namespace IncludeTrace

/-- The trace lines of a forest whose roots are reported at `depth`. -/
def Forest.reports (depth : ℕ) : Forest → List TraceLine
  | nil => []
  | cons path below beside => ⟨depth, path⟩ :: (below.reports (depth + 1) ++ beside.reports depth)

theorem Forest.map_path_reports (f : Forest) (depth : ℕ) :
    (f.reports depth).map TraceLine.path = f.paths := by
  induction f generalizing depth with
  | nil => rfl
  | cons path below beside ihbelow ihbeside => simp [reports, ihbelow, ihbeside]

/-- No absolute path begins with a space. -/
theorem Path.head?_ne_space {path : Text} (h : isAbsolute path) : path.head? ≠ some ' ' := by
  rintro hspace
  obtain ⟨rest, rfl⟩ := List.head?_eq_some_iff.mp hspace
  have hslashed : slashed (' ' :: rest) = ' ' :: slashed rest := rfl
  have hdrive : hasDrive (' ' :: slashed rest) = false := by
    rw [hasDrive.eq_def]
    split
    · next heq =>
      obtain ⟨rfl, -⟩ := List.cons.inj heq
      decide
    · rfl
  simp [isAbsolute, isForeign, hslashed, hdrive, Text.startsWith] at h

namespace Merge

variable {s : Setting} {trail : List Text}

theorem Setting.links_append (lines lines' : List TraceLine) :
    s.links trail (lines ++ lines') =
      s.links trail lines ++ s.links (lines.foldl s.descend trail) lines' := by
  induction lines generalizing trail with
  | nil => rfl
  | cons line rest ih => rw [List.cons_append, links, ih, links, List.cons_append, List.foldl_cons]

/-- **Reading a forest.** Reports of a forest of absolute paths, whose depth is that of the files below
the last key of `context`, on a trail that begins with `context`: they ask for the links of the forest
below this key, and the trail behind them begins with `context` as well. -/
theorem Setting.links_reports (f : Forest) (trail context : List Text)
    (habs : ∀ path ∈ f.paths, Path.isAbsolute path) (htrail : trail.take context.length = context) :
    s.links trail (f.reports context.length) =
        f.links s.view.cwd (context.getLast?.getD s.root) ∧
      ((f.reports context.length).foldl s.descend trail).take context.length = context := by
  induction f generalizing trail context with
  | nil => exact ⟨rfl, htrail⟩
  | cons path below beside ihbelow ihbeside =>
    have hpath : s.pathOf ⟨context.length, path⟩ = path := if_pos (habs path (by simp))
    have hdescend : s.descend trail ⟨context.length, path⟩ =
        context ++ [Path.key s.view.cwd path] := by
      rw [Setting.descend, Setting.keyOf, hpath, htrail]
    have hlink : s.linkOn trail ⟨context.length, path⟩ =
        ⟨context.getLast?.getD s.root, path⟩ := by
      rw [Setting.linkOn, Setting.parentOn, hpath, htrail]
    -- below the new file the context is one key longer
    obtain ⟨hbelow, hinner⟩ := ihbelow (context ++ [Path.key s.view.cwd path])
      (context ++ [Path.key s.view.cwd path]) (fun p hp => habs p (by simp [hp])) List.take_length
    rw [List.length_append, List.length_singleton] at hbelow hinner
    -- beside it, what was read below it is forgotten
    have houter : (((below.reports (context.length + 1)).foldl s.descend
        (context ++ [Path.key s.view.cwd path])).take context.length) = context := by
      have hshorter := congrArg (List.take context.length) hinner
      rwa [List.take_take, Nat.min_eq_left (Nat.le_succ _), List.take_left] at hshorter
    obtain ⟨hbeside, hafter⟩ := ihbeside _ context
      (fun p hp => habs p (by simp [hp])) houter
    rw [Forest.reports, Setting.links, hlink, hdescend, Setting.links_append, hbelow, hbeside,
      List.getLast?_concat, Option.getD_some, Forest.links, List.foldl_cons, hdescend,
      List.foldl_append]
    exact ⟨rfl, hafter⟩

end Merge

/-! ### The graph of a tree -/

section Tree

variable {cwd root : Text} {below : Forest}

/-- The graph that holds a tree and nothing else. -/
def Graph.ofTree (cwd root : Text) (below : Forest) : Graph :=
  ⟨Forest.item cwd (root, below) :: below.items cwd⟩

theorem Graph.keys_ofTree :
    (Graph.ofTree cwd root below).keys = (root :: below.paths).map (Path.key cwd) := by
  rw [keys, ofTree, List.map_cons, Forest.keys_items]
  rfl

/-- Putting the root into the empty graph and making the links below it gives the graph of the
tree. -/
theorem Graph.linkAll_eq_ofTree (habs : ∀ path ∈ root :: below.paths, Path.isAbsolute path)
    (hkeys : ((root :: below.paths).map (Path.key cwd)).Nodup) :
    (empty.ensure cwd root).linkAll cwd (below.links cwd (Path.key cwd root)) =
      ofTree cwd root below := by
  have hroot : empty.ensure cwd root = ⟨[⟨Path.key cwd root, root, []⟩]⟩ := by
    have hshown : Path.shown cwd root = root := if_pos (habs root List.mem_cons_self)
    simp [ensure, empty, has, find?, hshown]
  rw [hroot, Forest.linkAll_links below (by simp) (by simpa using hkeys)
    fun path hpath => habs path (List.mem_cons_of_mem _ hpath)]
  simp [Forest.including, ofTree, Forest.item]

/-- In the graph of a tree every file has its own item. -/
theorem Graph.find?_ofTree (hkeys : ((root :: below.paths).map (Path.key cwd)).Nodup)
    {node : Text × Forest} (hnode : node ∈ (root, below) :: below.nodes) :
    (ofTree cwd root below).find? (Path.key cwd node.1) = some (Forest.item cwd node) := by
  have hitem : Forest.item cwd node ∈ (ofTree cwd root below).items := by
    rw [ofTree, Forest.items, ← List.map_cons]
    exact List.mem_map_of_mem hnode
  exact find?_key_of_mem (keys_ofTree ▸ hkeys) hitem

/-- Drawing the graph of a tree from its root draws the tree. -/
theorem Graph.treeLines_ofTree (hkeys : ((root :: below.paths).map (Path.key cwd)).Nodup)
    (indent : Text) : (ofTree cwd root below).treeLines 0 indent (Forest.item cwd (root, below)) =
      root :: below.drawn indent 1 := by
  rw [List.map_cons, List.nodup_cons] at hkeys
  have hfresh : (ofTree cwd root below).items.filter
      (fun i => i.key ≠ (Forest.item cwd (root, below)).key) = below.items cwd := by
    rw [ofTree, List.filter_cons_of_neg (by simp), List.filter_eq_self]
    intro i hi
    have hmem : i.key ∈ below.paths.map (Path.key cwd) := by
      rw [← Forest.keys_items]
      exact List.mem_map_of_mem hi
    have hne : i.key ≠ Path.key cwd root := fun e => hkeys.1 (e ▸ hmem)
    exact decide_eq_true hne
  have hdraw := Forest.draw_eq cwd below (ofTree cwd root below) indent 1 [] []
  rw [List.append_nil, Drawing.draw, List.append_nil] at hdraw
  rw [treeLines, hfresh]
  exact congrArg (root :: ·) hdraw

end Tree

namespace Graph

open Merge Text

/-- **A tree that is written, merged and drawn is the tree.**

Let the paths of a tree be absolute, with distinct keys and without blanks at their ends. Write the
files below the root as reports, depth first, and other lines without the marker among them, each line
with a line end of its choice. Merged into the empty graph this gives the items of the tree, so that
every file includes just the files right below it, in order; and drawn from the root without a limit,
it gives the paths of the tree, depth first, each indented by its depth and none of them marked. -/
theorem treeLines_merge_written (view : FileView) (directories : List Text) (root : Text)
    (below : Forest) (indent : Text) (body : List (Text × LineEnd)) (last : Text)
    (habs : ∀ path ∈ root :: below.paths, Path.isAbsolute path)
    (hkeys : ((root :: below.paths).map (Path.key view.cwd)).Nodup)
    (htrim : ∀ path ∈ below.paths, trimEnd path = path)
    (hlines : ∀ l ∈ body.map Prod.fst ++ [last], IsLine l)
    (hcarry : (body.map Prod.fst ++ [last]).filter (fun l => TraceLine.standardMarker <:+: l) =
      (below.reports 0).map (TraceLine.report TraceLine.standardMarker)) :
    let report := empty.merge view root directories TraceLine.standardMarker (written body last)
    (∃ stats, report.verdict = .ok stats) ∧ report.graph = ofTree view.cwd root below ∧
      (∀ node ∈ (root, below) :: below.nodes, report.graph.includesOf (Path.key view.cwd node.1) =
        node.2.roots.map (Path.key view.cwd)) ∧
      ∃ item, report.graph.item? view.cwd root = some item ∧
        report.graph.treeLines 0 indent item = root :: below.drawn indent 1 := by
  intro report
  have hreports : TraceLine.ofText TraceLine.standardMarker (written body last) =
      below.reports 0 := by
    rw [TraceLine.ofText_written (by decide) hlines]
    refine TraceLine.ofLines_of_filter hcarry fun line hline => ?_
    have hpath : line.path ∈ below.paths := by
      rw [← below.map_path_reports 0]
      exact List.mem_map_of_mem hline
    exact TraceLine.ofLine?_report _
      (Path.head?_ne_space (habs _ (List.mem_cons_of_mem _ hpath))) (htrim _ hpath)
  have hdirect : StartsDirect
      (TraceLine.ofText TraceLine.standardMarker (written body last)) := by
    rw [hreports]
    cases below <;> simp [Forest.reports, StartsDirect]
  have hgraph : report.graph = ofTree view.cwd root below := by
    obtain ⟨hlinks, -⟩ := Setting.links_reports (s := .ofUnit view root directories) below [] []
      (fun path hpath => habs path (List.mem_cons_of_mem _ hpath)) rfl
    rw [graph_merge_of_startsDirect hdirect, hreports]
    exact (congrArg _ hlinks).trans (linkAll_eq_ofTree habs hkeys)
  refine ⟨⟨_, verdict_merge_of_startsDirect hdirect⟩, hgraph, fun node hnode => ?_,
    Forest.item view.cwd (root, below), ?_, ?_⟩
  · rw [hgraph, includesOf, find?_ofTree hkeys hnode]
    rfl
  · rw [hgraph, item?, find?_ofTree hkeys List.mem_cons_self]
  · rw [hgraph, treeLines_ofTree hkeys]

/-- A tree over two hosts, written with all three line ends, one of which fuses with the next, and with
the last report at the very end of the text. -/
theorem treeLines_merge_written_noisy :
    let view : FileView := ⟨['/'], fun _ => false⟩
    let below : Forest :=
      .cons ['/', 'a'] (.cons ['/', 'b'] .nil .nil) (.cons ['C', ':', '/', 'x'] .nil .nil)
    let body : List (Text × LineEnd) :=
      [(TraceLine.standardMarker ++ ['/', 'a'], .cr), ([], .lf),
        (TraceLine.standardMarker ++ [' ', '/', 'b'], .crlf), (['n'], .cr)]
    let last : Text := TraceLine.standardMarker ++ ['C', ':', '/', 'x']
    let report := empty.merge view ['/', 'r'] [] TraceLine.standardMarker (written body last)
    (body.map Prod.fst ++ [last]).filter (fun l => TraceLine.standardMarker <:+: l) =
        (below.reports 0).map (TraceLine.report TraceLine.standardMarker) ∧
      report.graph.adjacency = [(['/', 'r'], [['/', 'a'], ['c', ':', '/', 'x']]),
        (['/', 'a'], [['/', 'b']]), (['/', 'b'], []), (['c', ':', '/', 'x'], [])] ∧
      ∃ item, report.graph.item? view.cwd ['/', 'r'] = some item ∧
        report.graph.treeLines 0 ['-'] item =
          [['/', 'r'], ['-', '/', 'a'], ['-', '-', '/', 'b'], ['-', 'C', ':', '/', 'x']] := by
  intro view below body last report
  have habs : ∀ path ∈ ['/', 'r'] :: below.paths, Path.isAbsolute path := by decide +kernel
  have hkeys : ((['/', 'r'] :: below.paths).map (Path.key view.cwd)).Nodup := by decide +kernel
  have htrim : ∀ path ∈ below.paths, trimEnd path = path := by decide +kernel
  have hlines : ∀ l ∈ body.map Prod.fst ++ [last], IsLine l := by decide +kernel
  have hcarry : (body.map Prod.fst ++ [last]).filter (fun l => TraceLine.standardMarker <:+: l) =
      (below.reports 0).map (TraceLine.report TraceLine.standardMarker) := by decide +kernel
  obtain ⟨-, hgraph, -, hdrawn⟩ := treeLines_merge_written view [] ['/', 'r'] below ['-'] body last
    habs hkeys htrim hlines hcarry
  exact ⟨hcarry, (congrArg adjacency hgraph).trans (by decide +kernel), hdrawn⟩

end Graph

end IncludeTrace
