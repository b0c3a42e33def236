import IncludeTrace.Proofs.Graph.Reached

/-!
# What a depth limit hides

With a depth limit a tree ought to show the files that lie within the limit, which means that a chain of
at most so many includes leads to them. Every file that has a line lies within the limit. Not every file
within the limit has a line, though. A file that is drawn for the first time at the limit is **cut**: it
is not opened, and it is not opened either where it comes up again nearer to the root, because it counts
as drawn before.

`Graph.showsWithin_iff` says exactly when nothing is lost: when what is included by cut files that lie
nearer to the root than the limit has lines anyway. `Graph.not_showsWithin_met_at_limit` is the smallest
tree that loses a file.
-/

namespace IncludeTrace

open Drawing

/-- The files that rows draw for the first time and do not open. -/
def Drawing.cut (limit : Int) (rows : List Row) : List Text :=
  (rows.filter fun r => !r.again && !opens limit r.depth).map Row.key

namespace Graph

variable {g : Graph} {root key child : Text} {limit n : ℕ}

/-- The file at the end of a chain of at most `limit` includes lies **within** the limit. -/
def Within (g : Graph) (start : Text) (limit : ℕ) (key : Text) : Prop := ∃ n ≤ limit, g.Leads start n key

/-- The files that have a line in the tree of a file. -/
def shown (g : Graph) (limit : Int) (root : Text) : Finset Text :=
  insert root (keysOf (g.outline limit root))

/-- The tree of a file **shows what lies within a limit**: a file has a line exactly if it lies within
the limit, and a row has the mark only if those of the includes of its file that lie within the limit
have lines. -/
def ShowsWithin (g : Graph) (root : Text) (limit : ℕ) : Prop :=
  (∀ key, key ∈ g.shown limit root ↔ g.Within root limit key) ∧
    ∀ r ∈ g.outline limit root, r.again = true → ∀ child ∈ g.includesOf r.key,
      g.Within root limit child → child ∈ g.shown limit root

theorem mem_shown {limit : Int} :
    key ∈ g.shown limit root ↔ key ∈ root :: firsts (g.outline limit root) := by
  rw [shown, Finset.mem_insert]
  constructor
  · rintro (rfl | h)
    · exact List.mem_cons_self
    · exact mem_firsts_outline h
  · refine fun h => (List.mem_cons.mp h).imp_right fun h => ?_
    obtain ⟨r, hr, hkey⟩ := List.mem_map.mp h
    exact mem_keysOf.mpr ⟨r, List.mem_of_mem_filter hr, hkey⟩

/-- A file that has a line was opened or cut. -/
theorem opened_or_cut {limit : Int} (h : key ∈ g.shown limit root) :
    key ∈ root :: opened limit (g.outline limit root) ∨ key ∈ cut limit (g.outline limit root) := by
  rcases List.mem_cons.mp (mem_shown.mp h) with rfl | h
  · exact .inl List.mem_cons_self
  · obtain ⟨r, hr, rfl⟩ := List.mem_map.mp h
    obtain ⟨hmem, hfirst⟩ := List.mem_filter.mp hr
    cases hopen : opens limit r.depth with
    | true =>
      exact .inl (List.mem_cons_of_mem _ (List.mem_map_of_mem
        (List.mem_filter.mpr ⟨hmem, by simp [hfirst, hopen]⟩)))
    | false => exact .inr (List.mem_map_of_mem (List.mem_filter.mpr ⟨hmem, by simp [hfirst, hopen]⟩))

/-- No row stands deeper than the limit. -/
theorem depth_le_of_mem_outline (hlimit : 1 ≤ limit) {r : Row} (h : r ∈ g.outline limit root) :
    r.depth ≤ limit := by
  obtain ⟨front, back, hrows⟩ := List.append_of_mem h
  rcases hangs_expand front r back hrows with ⟨-, hdepth⟩ | ⟨u, -, -, hopen, -, hdepth⟩
  · omega
  · have hlt : (limit : Int) ≤ 0 ∨ (u.depth : Int) < limit := by simpa [opens] using hopen
    omega

/-- A file that has a line lies within the limit. -/
theorem within_of_mem_shown (hlimit : 1 ≤ limit) (h : key ∈ g.shown limit root) :
    g.Within root limit key := by
  rcases Finset.mem_insert.mp h with rfl | h
  · exact ⟨0, Nat.zero_le limit, .start⟩
  · obtain ⟨r, hr, rfl⟩ := mem_keysOf.mp h
    exact ⟨r.depth, depth_le_of_mem_outline hlimit hr, leads_of_mem_outline hr⟩

/-- Chains within the limit run through files that have lines, as long as nothing is lost where a file
was cut. -/
theorem mem_shown_of_leads (hcut : ∀ key ∈ cut limit (g.outline limit root),
      g.Within root (limit - 1) key → ∀ child ∈ g.includesOf key, child ∈ g.shown limit root)
    (h : g.Leads root n key) (hn : n ≤ limit) : key ∈ g.shown limit root := by
  induction h with
  | start => exact Finset.mem_insert_self root _
  | @step n key child hkey hchild ih =>
    rcases opened_or_cut (ih (by omega)) with hopened | hmem
    · exact mem_shown.mpr (mem_firsts_of_opened hopened hchild)
    · exact hcut key hmem ⟨n, by omega, hkey⟩ child hchild

/-- **What a depth limit shows.**

The lines of the tree of an item of a well-formed graph are its own path and the rows of its outline.
Whatever has a line lies within the limit. The tree shows all that lies within the limit, and marks no
file whose includes it hides, exactly if each include of a file has a line that was cut although it lies
nearer to the root than the limit. -/
theorem showsWithin_iff (g : Graph) (hg : g.WellFormed) (root : Item) (hroot : root ∈ g.items)
    (limit : ℕ) (hlimit : 1 ≤ limit) (indent : Text) :
    let rows := g.outline limit root.key
    g.treeLines limit indent root = root.path :: rows.map (Row.text g indent) ∧
      (∀ key ∈ g.shown limit root.key, g.Within root.key limit key) ∧
      (g.ShowsWithin root.key limit ↔ ∀ key ∈ cut limit rows, g.Within root.key (limit - 1) key →
        ∀ child ∈ g.includesOf key, child ∈ g.shown limit root.key) := by
  intro rows
  have hwithin : ∀ key ∈ g.shown limit root.key, g.Within root.key limit key := fun key =>
    within_of_mem_shown hlimit
  refine ⟨treeLines_eq_outline hg limit indent hroot, hwithin, fun h key _ hnear child hchild => ?_,
    fun hcut => ?_⟩
  · obtain ⟨n, hn, hkey⟩ := hnear
    exact (h.1 child).mpr ⟨n + 1, by omega, hkey.step hchild⟩
  · have hshown : ∀ key, g.Within root.key limit key → key ∈ g.shown limit root.key :=
      fun key ⟨n, hn, hkey⟩ => mem_shown_of_leads hcut hkey hn
    exact ⟨fun key => ⟨hwithin key, hshown key⟩, fun r _ _ child _ => hshown child⟩

/-- A shared header at the limit is cut, but nothing is lost: no shorter chain leads to it. -/
theorem showsWithin_iff_shared :
    let root : Item := ⟨['r'], ['R'], [['a'], ['b']]⟩
    let g : Graph := ⟨[root, ⟨['a'], ['A'], [['c'], ['r']]⟩, ⟨['b'], ['B'], [['c']]⟩,
      ⟨['c'], ['C'], [['d']]⟩, ⟨['d'], ['D'], []⟩]⟩
    g.WellFormed ∧ root ∈ g.items ∧ 1 ≤ 2 ∧
      g.treeLines (2 : ℕ) ['-'] root = ["R".toList, "-A".toList, "--C".toList,
        "--R (see above)".toList, "-B".toList, "--C (see above)".toList] ∧
      cut 2 (g.outline 2 ['r']) = [['c']] ∧ g.ShowsWithin ['r'] 2 := by
  intro root g
  have hg : g.WellFormed := ⟨by decide, by decide⟩
  have hroot : root ∈ g.items := by decide
  obtain ⟨hlines, -, hiff⟩ := showsWithin_iff g hg root hroot 2 (by decide) ['-']
  have hrows : g.outline 2 ['r'] = [⟨['r'], 0, 1, ['a'], false⟩, ⟨['a'], 0, 2, ['c'], false⟩,
      ⟨['a'], 1, 2, ['r'], true⟩, ⟨['r'], 1, 1, ['b'], false⟩, ⟨['b'], 0, 2, ['c'], true⟩] := by
    simp [g, root, outline, expand, opens, includesOf, find?, keysOf]
  have hcut : cut 2 (g.outline 2 ['r']) = [['c']] := by
    rw [hrows]
    rfl
  refine ⟨hg, hroot, by decide, hlines.trans ?_, hcut, hiff.mpr fun key hkey hnear => ?_⟩
  · change root.path :: (g.outline 2 ['r']).map (Row.text g ['-']) = _
    rw [hrows]
    decide +kernel
  obtain rfl : key = ['c'] := List.mem_singleton.mp (hcut ▸ hkey)
  -- the header is not included by the root itself
  obtain ⟨n, hn, hleads⟩ := hnear
  exfalso
  cases hleads with
  | step hkey hchild =>
    cases hkey with
    | start => exact absurd hchild (by decide)
    | step _ _ => omega

/-- **A file that is met at the limit and again in front of it** is not opened at all. What it includes
has no line, although two includes lead there, and its second line has the mark. -/
theorem not_showsWithin_met_at_limit :
    let root : Item := ⟨"/r".toList, "/r".toList, ["/a".toList, "/b".toList]⟩
    let g : Graph := ⟨[root, ⟨"/a".toList, "/a".toList, ["/b".toList]⟩,
      ⟨"/b".toList, "/b".toList, ["/c".toList]⟩, ⟨"/c".toList, "/c".toList, []⟩]⟩
    g.WellFormed ∧ root ∈ g.items ∧
      g.treeLines 2 [' ', ' '] root = ["/r".toList, "  /a".toList, "    /b".toList,
        "  /b (see above)".toList] ∧
      g.Within "/r".toList 2 "/c".toList ∧ "/c".toList ∉ g.shown 2 "/r".toList ∧
      ¬ g.ShowsWithin "/r".toList 2 := by
  intro root g
  have hg : g.WellFormed := ⟨by decide +kernel, by decide +kernel⟩
  have hroot : root ∈ g.items := by decide +kernel
  have hwithin : g.Within "/r".toList 2 "/c".toList :=
    ⟨2, le_rfl, (Leads.start.step (by decide +kernel : "/b".toList ∈ _)).step (by decide +kernel)⟩
  have hrows : g.outline 2 "/r".toList = [⟨"/r".toList, 0, 1, "/a".toList, false⟩,
      ⟨"/a".toList, 0, 2, "/b".toList, false⟩, ⟨"/r".toList, 1, 1, "/b".toList, true⟩] := by
    simp [g, root, outline, expand, opens, includesOf, find?, keysOf]
  have hhidden : "/c".toList ∉ g.shown 2 "/r".toList := by
    rw [mem_shown, hrows]
    decide +kernel
  refine ⟨hg, hroot, (treeLines_eq_outline hg 2 [' ', ' '] hroot).trans ?_, hwithin, hhidden,
    fun h => hhidden ((h.1 _).mpr hwithin)⟩
  change root.path :: (g.outline 2 "/r".toList).map (Row.text g [' ', ' ']) = _
  rw [hrows]
  decide +kernel

end Graph

end IncludeTrace
