import IncludeTrace.Proofs.Transcript.Trail

/-!
# The parent of a trace line

Which file does a trace line hang on? The answer here speaks of the depths of the lines only, not of
a chain or a graph. The **level** of a line is its depth, cut down to one more than the level of the
line before it, so that a jump of any size goes down by one. A line of level `0` hangs on the
translation unit, any other on its **parent line**: the latest line before it whose level is one
less.

The trail of a line holds, at each place, the key of the latest line of that level
(`Setting.getElem?_trail`). From this the parents of all links of a merge are read off
(`Setting.parentOn_trail`), and `Graph.merge_hangs_on_parents` puts everything about a merge that goes
through together: its verdict, its graph, and its links one by one.
-/

namespace IncludeTrace.Merge

/-- The depth of line `i`. -/
def depthAt (lines : List TraceLine) (i : ℕ) : ℕ := (lines[i]?.map TraceLine.depth).getD 0

/-- The **level** of line `i`, for lines of depths `d`. -/
def level (d : ℕ → ℕ) : ℕ → ℕ
  | 0 => 0
  | i + 1 => min (d (i + 1)) (level d i + 1)

/-- Line `j` is the latest of the lines before line `n` that has level `l`. -/
structure IsLatest (e : ℕ → ℕ) (n l j : ℕ) : Prop where
  before : j < n
  level_eq : e j = l
  latest : ∀ k, j < k → k < n → e k ≠ l

/-- Line `j` is the **parent line** of line `i`: the latest line before it that is one level up. -/
def IsParentLine (e : ℕ → ℕ) (i j : ℕ) : Prop := e i ≠ 0 ∧ IsLatest e i (e i - 1) j

theorem depthAt_of_lt {lines : List TraceLine} {i : ℕ} (hi : i < lines.length) :
    depthAt lines i = lines[i].depth := by
  rw [depthAt, List.getElem?_eq_getElem hi, Option.map_some, Option.getD_some]

/-- A line of its own level is the latest one of it. -/
theorem isLatest_self (e : ℕ → ℕ) (i : ℕ) : IsLatest e (i + 1) (e i) i :=
  ⟨Nat.lt_succ_self i, rfl, fun _ h h' => by omega⟩

/-- A line of another level leaves the latest line of a level the latest. -/
theorem IsLatest.succ {e : ℕ → ℕ} {n l j : ℕ} (h : IsLatest e n l j) (hn : e n ≠ l) :
    IsLatest e (n + 1) l j := by
  refine ⟨Nat.lt_succ_of_lt h.before, h.level_eq, fun k hjk hk => ?_⟩
  rcases Nat.lt_succ_iff_lt_or_eq.mp hk with hk | rfl
  · exact h.latest k hjk hk
  · exact hn

/-! ### What stands on a trail -/

section Trail

variable {s : Setting} {lines : List TraceLine} {i : ℕ}

theorem Setting.trail_take_succ (hi : i < lines.length) :
    s.trail (lines.take (i + 1)) = s.descend (s.trail (lines.take i)) lines[i] := by
  rw [Setting.trail, List.take_add_one, List.getElem?_eq_getElem hi, Option.toList_some,
    List.foldl_append]
  rfl

theorem Setting.trail_take_one (hi : 0 < lines.length) :
    s.trail (lines.take 1) = [s.keyOf lines[0]] := by
  rw [Setting.trail_take_succ hi, List.take_zero, Setting.trail, List.foldl_nil,
    Setting.descend, List.take_nil, List.nil_append]

/-- A trail is one longer than the level of its line. -/
theorem Setting.length_trail (hi : i < lines.length) :
    (s.trail (lines.take (i + 1))).length = level (depthAt lines) i + 1 := by
  induction i with
  | zero => rw [Setting.trail_take_one hi, List.length_singleton, level]
  | succ i ih =>
    rw [Setting.trail_take_succ hi, Setting.descend, List.length_append, List.length_take,
      ih (by omega), level, depthAt_of_lt hi, List.length_singleton]

/-- **Places on a trail.** At place `l` of the trail of line `i` stands the key of the latest line, up
to line `i`, of level `l`. -/
theorem Setting.getElem?_trail (hi : i < lines.length) {l : ℕ}
    (hl : l ≤ level (depthAt lines) i) :
    ∃ j, ∃ hj : j < lines.length, IsLatest (level (depthAt lines)) (i + 1) l j ∧
      (s.trail (lines.take (i + 1)))[l]? = some (s.keyOf lines[j]) := by
  induction i generalizing l with
  | zero =>
    obtain rfl : l = 0 := by simpa [level] using hl
    refine ⟨0, hi, isLatest_self _ 0, ?_⟩
    rw [Setting.trail_take_one hi, List.getElem?_cons_zero]
  | succ i ih =>
    have hlevel : level (depthAt lines) (i + 1) =
        min lines[i + 1].depth (level (depthAt lines) i + 1) := by
      rw [level, depthAt_of_lt hi]
    have hkept : ((s.trail (lines.take (i + 1))).take lines[i + 1].depth).length =
        level (depthAt lines) (i + 1) := by
      rw [List.length_take, Setting.length_trail (by omega), hlevel]
    rw [Setting.trail_take_succ hi, Setting.descend]
    rcases Nat.lt_or_eq_of_le hl with hlt | rfl
    · -- a place above the new line is as it was
      obtain ⟨j, hj, hlatest, hkey⟩ := ih (by omega) (l := l) (by omega)
      refine ⟨j, hj, hlatest.succ (Nat.ne_of_gt hlt), ?_⟩
      rw [List.getElem?_append_left (by omega), List.getElem?_take_of_lt (by omega), hkey]
    · -- the last place is that of the new line
      refine ⟨i + 1, hi, isLatest_self _ (i + 1), ?_⟩
      rw [← hkept, List.getElem?_concat_length]

/-- **Parents.** A line of level `0` hangs on the translation unit, any other on its parent line. -/
theorem Setting.parentOn_trail (hi : i < lines.length) :
    (level (depthAt lines) i = 0 → s.parentOn (s.trail (lines.take i)) lines[i] = s.root) ∧
      (level (depthAt lines) i ≠ 0 → ∃ j, ∃ hj : j < lines.length,
        IsParentLine (level (depthAt lines)) i j ∧
          s.parentOn (s.trail (lines.take i)) lines[i] = s.keyOf lines[j]) := by
  cases i with
  | zero => simp [Setting.parentOn, Setting.trail, level]
  | succ i =>
    have hlen : ((s.trail (lines.take (i + 1))).take lines[i + 1].depth).length =
        level (depthAt lines) (i + 1) := by
      rw [List.length_take, Setting.length_trail (by omega), level, depthAt_of_lt hi]
    have hle : level (depthAt lines) (i + 1) ≤ level (depthAt lines) i + 1 := by
      rw [level]
      exact Nat.min_le_right _ _
    rw [Setting.parentOn, List.getLast?_eq_getElem?, hlen]
    constructor
    · intro h0
      rw [List.length_eq_zero_iff.mp (hlen.trans h0)]
      rfl
    · intro h0
      obtain ⟨j, hj, hlatest, hkey⟩ := Setting.getElem?_trail (s := s)
        (by omega : i < lines.length) (l := level (depthAt lines) (i + 1) - 1) (by omega)
      -- the last place that the line keeps is one level up
      have hdepth : level (depthAt lines) (i + 1) - 1 < lines[i + 1].depth := by
        rw [List.length_take] at hlen
        omega
      refine ⟨j, hj, ⟨h0, hlatest⟩, ?_⟩
      rw [List.getElem?_take_of_lt hdepth, hkey, Option.getD_some]

/-- The links of lines, one by one. -/
theorem Setting.getElem?_links {trail : List Text} (hi : i < lines.length) :
    (s.links trail lines)[i]? = some (s.linkOn ((lines.take i).foldl s.descend trail) lines[i]) := by
  induction lines generalizing trail i with
  | nil => exact absurd hi (Nat.not_lt_zero i)
  | cons line rest ih =>
    cases i with
    | zero => rfl
    | succ i =>
      rw [Setting.links, List.getElem?_cons_succ, ih (Nat.lt_of_succ_lt_succ hi),
        List.take_succ_cons, List.foldl_cons, List.getElem_cons_succ]

@[simp]
theorem Setting.length_links {trail : List Text} :
    (s.links trail lines).length = lines.length := by
  induction lines generalizing trail with
  | nil => rfl
  | cons line rest ih => rw [Setting.links, List.length_cons, ih, List.length_cons]

end Trail

end IncludeTrace.Merge

namespace IncludeTrace.Graph

open Merge

/-- A transcript that starts directly adds an include for each of its trace lines. -/
theorem edgeCount_merge_of_startsDirect {g : Graph} {view : FileView} {unit marker text : Text}
    {directories : List Text} (hn : g.keys.Nodup)
    (h : StartsDirect (TraceLine.ofText marker text)) :
    (g.merge view unit directories marker text).graph.edgeCount =
      g.edgeCount + (TraceLine.ofText marker text).length := by
  rw [graph_merge_of_startsDirect h, edgeCount_linkAll (nodup_keys_ensure hn) (grounded_links h),
    edgeCount_ensure, Setting.length_links]

/-- **Merging hangs every line on its parent.** A transcript whose first trace line, if there is one,
is a direct include is merged, from whatever graph. The merge makes one link for each trace line, in
order, and nothing else: every include list grows by the children of its own links. Link `i` leads to
the file that line `i` reports, found in the directory of the translation unit or in one of the given
ones, and it starts at the unit if the level of line `i` is `0`, else at the child of its parent
line's link. -/
theorem merge_hangs_on_parents (g : Graph) (view : FileView) (unit : Text) (directories : List Text)
    (marker text : Text) (hfirst : StartsDirect (TraceLine.ofText marker text)) :
    let lines := TraceLine.ofText marker text
    let e := level (depthAt lines)
    let links := (Progress.start g view.cwd unit).links (.ofUnit view unit directories) lines
    let report := g.merge view unit directories marker text
    report.verdict = .ok ⟨text.lines.length, lines.length, lines.length,
        (lines.map TraceLine.depth).foldr max 0⟩ ∧
      report.graph = (g.ensure view.cwd unit).linkAll view.cwd links ∧
      (∀ key, report.graph.includesOf key = g.includesOf key ++
        (links.filter fun l => l.parent = key).map (Link.child view.cwd)) ∧
      (g.keys.Nodup → report.graph.edgeCount = g.edgeCount + lines.length) ∧
      links.length = lines.length ∧
      ∀ i (hi : i < lines.length), ∃ link, links[i]? = some link ∧
        link.path = resolve view (Path.sourceDirectory view.cwd unit :: directories) lines[i].path ∧
        (e i = 0 → link.parent = Path.key view.cwd unit) ∧
        (e i ≠ 0 → ∃ j, IsParentLine e i j ∧ ∃ above, links[j]? = some above ∧
          link.parent = above.child view.cwd) := by
  intro lines e links report
  obtain ⟨p, hp⟩ := Progress.reads_of_startsDirect g view unit directories hfirst
  have hlinks : links = (Setting.ofUnit view unit directories).links [] lines := hp.links_eq
  have hgraph : report.graph = (g.ensure view.cwd unit).linkAll view.cwd links := by
    rw [hlinks]
    exact graph_merge_of_startsDirect hfirst
  have hgrounded : (g.ensure view.cwd unit).Grounded view.cwd links := by
    rw [hlinks]
    exact grounded_links hfirst
  have hlength : links.length = lines.length := by rw [hlinks, Setting.length_links]
  refine ⟨verdict_merge_of_startsDirect hfirst, hgraph, fun key => ?_, fun hn => ?_, hlength,
    fun i hi => ?_⟩
  · rw [hgraph, includesOf_linkAll hgrounded, includesOf_ensure]
  · rw [hgraph, edgeCount_linkAll (nodup_keys_ensure hn) hgrounded, edgeCount_ensure, hlength]
  · obtain ⟨hroot, hparent⟩ :=
      Setting.parentOn_trail (s := .ofUnit view unit directories) hi
    rw [hlinks]
    refine ⟨_, Setting.getElem?_links hi, rfl, hroot, fun h0 => ?_⟩
    obtain ⟨j, hj, hline, hkey⟩ := hparent h0
    exact ⟨j, hline, _, Setting.getElem?_links hj, hkey⟩

/-- A jump over several levels goes down by one, a header that was there before gets no part in it, and
a relative report is looked for in the directories. -/
theorem merge_hangs_on_parents_jump :
    let view : FileView := ⟨['/'], fun path => path = ['/', 'x', '/', 'c']⟩
    let g : Graph := ⟨[⟨['/', 'a'], ['/', 'a'], [['/', 'o']]⟩, ⟨['/', 'o'], ['/', 'o'], []⟩]⟩
    let text : Text := ">B\r\n\r>   c\n>  d\n>o".toList
    let report := g.merge view ['a'] [['/', 'x']] ['>'] text
    StartsDirect (TraceLine.ofText ['>'] text) ∧ g.keys.Nodup ∧
      report.verdict = .ok ⟨5, 4, 4, 3⟩ ∧ report.graph.edgeCount = 5 ∧
      report.graph.includesOf ['/', 'a'] = [['/', 'o'], ['/', 'b'], ['/', 'o']] ∧
      report.graph.includesOf ['/', 'b'] = [['/', 'x', '/', 'c']] ∧
      report.graph.includesOf ['/', 'x', '/', 'c'] = [['/', 'd']] := by
  intro view g text report
  have hfirst : StartsDirect (TraceLine.ofText ['>'] text) := by decide +kernel
  have hkeys : g.keys.Nodup := by decide +kernel
  obtain ⟨hverdict, _, hincludes, hcount, _⟩ :=
    merge_hangs_on_parents g view ['a'] [['/', 'x']] ['>'] text hfirst
  refine ⟨hfirst, hkeys, hverdict.trans ?_, (hcount hkeys).trans ?_,
    (hincludes _).trans ?_, (hincludes _).trans ?_, (hincludes _).trans ?_⟩
  all_goals decide +kernel

end IncludeTrace.Graph
