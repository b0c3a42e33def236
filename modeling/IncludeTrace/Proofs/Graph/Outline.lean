import IncludeTrace.Proofs.Graph.Forest
import IncludeTrace.Proofs.Graph.History
import Mathlib.Data.Finset.Card

/-!
# Outlines

Drawing a tree works through a stack of frames. The same lines can be said by recursion: a file that was
not met yet is drawn, then what it includes, one level deeper, and then the includes beside it, for which
everything that was drawn in between counts as met. `Drawing.expand` follows this recursion and gives a
**row** for each line, which remembers whose include the line shows. `Graph.treeLines_eq_outline` says
that the lines of a tree are the rows of its outline.

Everything else is read off the rows. Each comes again exactly if its file was drawn before
(`Drawing.marks_expand`), and each hangs on the row that drew its parent for the first time
(`Drawing.hangs_expand`). The includes of the files that were opened are shown, each of them once
(`Drawing.perm_edges_expand`).
-/

namespace IncludeTrace

namespace Drawing

/-- A **row** of a drawing shows include number `place` of the file `parent`, at `depth`. It comes
`again` if the included file was drawn before. -/
structure Row where
  parent : Text
  place : ℕ
  depth : ℕ
  key : Text
  again : Bool
  deriving DecidableEq

/-- The line of a row. -/
def Row.text (g : Graph) (indent : Text) (r : Row) : Text :=
  Text.times r.depth indent ++ g.pathOf r.key ++ if r.again then ' ' :: repeatedMark else []

/-- The include that a row shows: the parent, its number among the includes of the parent, and the
included file. -/
def Row.edge (r : Row) : Text × ℕ × Text := (r.parent, r.place, r.key)

/-- The files that rows show. -/
def keysOf (rows : List Row) : Finset Text := (rows.map Row.key).toFinset

/-- The files that rows draw for the first time. -/
def firsts (rows : List Row) : List Text := (rows.filter fun r => !r.again).map Row.key

/-- The files that rows draw for the first time at a depth where they are opened. -/
def opened (limit : Int) (rows : List Row) : List Text :=
  (rows.filter fun r => !r.again && opens limit r.depth).map Row.key

/-- The includes of a file from number `place` on. -/
def edgesFrom (parent : Text) (place : ℕ) : List Text → List (Text × ℕ × Text)
  | [] => []
  | child :: rest => (parent, place, child) :: edgesFrom parent (place + 1) rest

/-- The includes of a file. -/
def edgesOf (g : Graph) (key : Text) : List (Text × ℕ × Text) := edgesFrom key 0 (g.includesOf key)

/-! ### The recursion -/

/-- The number of files of a graph that were not met. -/
def unmet (g : Graph) (met : Finset Text) : ℕ := (g.keys.toFinset \ met).card

section Unmet

variable {g : Graph} {met met' : Finset Text} {key : Text}

theorem unmet_le (h : met ⊆ met') : unmet g met' ≤ unmet g met :=
  Finset.card_le_card (Finset.sdiff_subset_sdiff subset_rfl h)

theorem unmet_insert_lt (hkey : key ∈ g.keys) (hmet : key ∉ met) :
    unmet g (insert key met) < unmet g met := by
  refine Finset.card_lt_card ((Finset.ssubset_iff_of_subset ?_).mpr ⟨key, ?_, ?_⟩)
  · exact Finset.sdiff_subset_sdiff subset_rfl (Finset.subset_insert key met)
  · simp [hkey, hmet]
  · simp

end Unmet

/-- The rows of `children`, which are the includes of `parent` from number `place` on, where the files
in `met` were drawn before. -/
def expand (g : Graph) (limit : Int) (parent : Text) (depth place : ℕ) (met : Finset Text) :
    List Text → List Row
  | [] => []
  | child :: rest =>
    if child ∈ met then
      ⟨parent, place, depth, child, true⟩ :: expand g limit parent depth (place + 1) met rest
    else if opens limit depth then
      let below := expand g limit child (depth + 1) 0 (insert child met) (g.includesOf child)
      ⟨parent, place, depth, child, false⟩ ::
        (below ++ expand g limit parent depth (place + 1) (insert child met ∪ keysOf below) rest)
    else
      ⟨parent, place, depth, child, false⟩ ::
        expand g limit parent depth (place + 1) (insert child met) rest
termination_by children => (unmet g met, children.length)
decreasing_by
  · exact Prod.Lex.right _ (Nat.lt_succ_self _)
  · -- a file that is not in the graph counts for nothing, but then it includes nothing
    by_cases hkey : child ∈ g.keys
    · exact Prod.Lex.left _ _ (unmet_insert_lt hkey ‹_›)
    · rw [Graph.includesOf_of_not_has (mt Graph.has_iff_mem_keys.mp hkey)]
      exact Prod.Lex.right' _ (unmet_le (Finset.subset_insert child met)) (Nat.succ_pos _)
  · exact Prod.Lex.right' _ (unmet_le ((Finset.subset_insert child met).trans
      Finset.subset_union_left)) (Nat.lt_succ_self _)
  · exact Prod.Lex.right' _ (unmet_le (Finset.subset_insert child met)) (Nat.lt_succ_self _)

section Expand

variable {g : Graph} {limit : Int} {parent : Text} {depth place : ℕ} {met : Finset Text}
  {children : List Text} {rows rows' : List Row} {r : Row}

@[simp]
theorem mem_keysOf {key : Text} : key ∈ keysOf rows ↔ ∃ r ∈ rows, r.key = key := by
  simp [keysOf]

theorem keysOf_cons : keysOf (r :: rows) = insert r.key (keysOf rows) := by
  simp [keysOf]

theorem keysOf_append : keysOf (rows ++ rows') = keysOf rows ∪ keysOf rows' := by
  simp [keysOf]

/-! ### Rows and the rows in front of them -/

/-- Each row has the property `P` together with the rows in front of it. -/
def Each (P : List Row → Row → Prop) (rows : List Row) : Prop :=
  ∀ front r back, rows = front ++ r :: back → P front r

theorem each_nil (P : List Row → Row → Prop) : Each P [] := by
  intro front r back h
  simp at h

theorem each_cons {P : List Row → Row → Prop} :
    Each P (r :: rows) ↔ P [] r ∧ Each (fun front => P (r :: front)) rows := by
  constructor
  · intro h
    exact ⟨h [] r rows rfl, fun front r' back e => h (r :: front) r' back (by rw [e]; rfl)⟩
  · rintro ⟨hr, hrows⟩ front r' back e
    cases front with
    | nil =>
      obtain ⟨rfl, -⟩ := List.cons.inj e
      exact hr
    | cons f front =>
      obtain ⟨rfl, hback⟩ := List.cons.inj e
      exact hrows front r' back hback

theorem each_append {P : List Row → Row → Prop} : Each P (rows ++ rows') ↔
    Each P rows ∧ Each (fun front => P (rows ++ front)) rows' := by
  induction rows generalizing P with
  | nil => simp [each_nil]
  | cons r rows ih => rw [List.cons_append, each_cons, each_cons, ih, and_assoc]; rfl

theorem Each.imp {P Q : List Row → Row → Prop} (h : Each P rows)
    (himp : ∀ front r, P front r → Q front r) : Each Q rows :=
  fun front r back e => himp front r (h front r back e)

/-- Where the files in `met` were drawn before, rows **mark** repetitions: a row comes again exactly if
its file is one of these or stands on a row in front. -/
def Marks (met : Finset Text) (rows : List Row) : Prop :=
  Each (fun front r => r.again = true ↔ r.key ∈ met ∪ keysOf front) rows

theorem marks_cons : Marks met (r :: rows) ↔
    (r.again = true ↔ r.key ∈ met) ∧ Marks (insert r.key met) rows := by
  have hmet : met ∪ keysOf [] = met := Finset.union_empty met
  simp only [Marks, each_cons, hmet, keysOf_cons, Finset.union_insert, Finset.insert_union]

theorem marks_append : Marks met (rows ++ rows') ↔
    Marks met rows ∧ Marks (met ∪ keysOf rows) rows' := by
  simp only [Marks, each_append, keysOf_append, Finset.union_assoc]

/-- **Every row comes again exactly if its file was drawn before.** -/
theorem marks_expand : Marks met (expand g limit parent depth place met children) := by
  fun_induction expand g limit parent depth place met children with
  | case1 => exact each_nil _
  | case2 parent depth place met child rest hmet ih =>
    refine marks_cons.mpr ⟨by simp [hmet], ?_⟩
    show Marks (insert child met) _
    rwa [Finset.insert_eq_of_mem hmet]
  | case3 parent depth place met child rest hmet hopen below ihbelow ihbeside =>
    exact marks_cons.mpr ⟨by simp [hmet], marks_append.mpr ⟨ihbelow, ihbeside⟩⟩
  | case4 parent depth place met child rest hmet hcut ih =>
    exact marks_cons.mpr ⟨by simp [hmet], ih⟩

/-- Rows **hang** together, below a parent whose includes stand at `depth`: a row is an include of the
parent, or stands one level below the row in front that drew its own parent for the first time and
opened it. -/
def Hangs (limit : Int) (parent : Text) (depth : ℕ) (rows : List Row) : Prop :=
  Each (fun front r => r.parent = parent ∧ r.depth = depth ∨
    ∃ u ∈ front, u.again = false ∧ opens limit u.depth = true ∧ u.key = r.parent ∧
      r.depth = u.depth + 1) rows

/-- **Every row stands one level below its parent.** -/
theorem hangs_expand :
    Hangs limit parent depth (expand g limit parent depth place met children) := by
  fun_induction expand g limit parent depth place met children with
  | case1 => exact each_nil _
  | case2 parent depth place met child rest hmet ih =>
    refine each_cons.mpr ⟨.inl ⟨rfl, rfl⟩, ih.imp fun front r h => h.imp_right ?_⟩
    rintro ⟨u, hu, hfirst⟩
    exact ⟨u, List.mem_cons_of_mem _ hu, hfirst⟩
  | case3 parent depth place met child rest hmet hopen below ihbelow ihbeside =>
    refine each_cons.mpr ⟨.inl ⟨rfl, rfl⟩, each_append.mpr ⟨ihbelow.imp fun front r h => .inr ?_,
      ihbeside.imp fun front r h => h.imp_right ?_⟩⟩
    · rcases h with ⟨hparent, hdepth⟩ | ⟨u, hu, hfirst⟩
      · exact ⟨_, List.mem_cons_self, rfl, hopen, hparent.symm, hdepth⟩
      · exact ⟨u, List.mem_cons_of_mem _ hu, hfirst⟩
    · rintro ⟨u, hu, hfirst⟩
      exact ⟨u, List.mem_cons_of_mem _ (List.mem_append_right _ hu), hfirst⟩
  | case4 parent depth place met child rest hmet hcut ih =>
    refine each_cons.mpr ⟨.inl ⟨rfl, rfl⟩, ih.imp fun front r h => h.imp_right ?_⟩
    rintro ⟨u, hu, hfirst⟩
    exact ⟨u, List.mem_cons_of_mem _ hu, hfirst⟩

/-! ### Files and includes on rows -/

theorem opened_append : opened limit (rows ++ rows') = opened limit rows ++ opened limit rows' := by
  simp [opened]

/-- A file on a row was drawn before or is drawn for the first time on some row. -/
theorem Marks.mem_firsts (h : Marks met rows) {key : Text} (hkey : key ∈ keysOf rows) :
    key ∈ met ∨ key ∈ firsts rows := by
  induction rows generalizing met with
  | nil => simp [keysOf] at hkey
  | cons r rows ih =>
    obtain ⟨hr, hrows⟩ := marks_cons.mp h
    have hfirst : r.key ∈ met ∨ r.key ∈ firsts (r :: rows) := by
      cases hagain : r.again with
      | true => exact .inl (hr.mp hagain)
      | false => exact .inr (by simp [firsts, hagain])
    rw [keysOf_cons, Finset.mem_insert] at hkey
    rcases hkey with rfl | hkey
    · exact hfirst
    · rcases ih hrows hkey with hmem | hmem
      · rcases Finset.mem_insert.mp hmem with rfl | hmem
        · exact hfirst
        · exact .inl hmem
      · refine .inr (List.mem_map.mpr ?_)
        obtain ⟨u, hu, rfl⟩ := List.mem_map.mp hmem
        exact ⟨u, List.mem_filter.mpr ⟨List.mem_cons_of_mem _ (List.mem_of_mem_filter hu),
          (List.mem_filter.mp hu).2⟩, rfl⟩

/-- No file is drawn for the first time twice, and none that was drawn before. -/
theorem Marks.nodup_firsts (h : Marks met rows) :
    (firsts rows).Nodup ∧ ∀ key ∈ firsts rows, key ∉ met := by
  induction rows generalizing met with
  | nil => simp [firsts]
  | cons r rows ih =>
    obtain ⟨hr, hrows⟩ := marks_cons.mp h
    obtain ⟨hnodup, hnew⟩ := ih hrows
    have hlater : ∀ key ∈ firsts rows, key ≠ r.key ∧ key ∉ met := fun key hkey =>
      not_or.mp (mt Finset.mem_insert.mpr (hnew key hkey))
    cases hagain : r.again with
    | true =>
      have hfirsts : firsts (r :: rows) = firsts rows := by simp [firsts, hagain]
      rw [hfirsts]
      exact ⟨hnodup, fun key hkey => (hlater key hkey).2⟩
    | false =>
      have hfirsts : firsts (r :: rows) = r.key :: firsts rows := by simp [firsts, hagain]
      rw [hfirsts, List.nodup_cons, List.forall_mem_cons]
      exact ⟨⟨fun hmem => (hlater _ hmem).1 rfl, hnodup⟩, by simp [← hr, hagain],
        fun key hkey => (hlater key hkey).2⟩

/-- **The includes that rows show** are those that were asked for and those of the files that were
opened, each of them once. -/
theorem perm_edges_expand : ((expand g limit parent depth place met children).map Row.edge).Perm
    (edgesFrom parent place children ++
      (opened limit (expand g limit parent depth place met children)).flatMap (edgesOf g)) := by
  fun_induction expand g limit parent depth place met children with
  | case1 => exact .refl _
  | case2 parent depth place met child rest hmet ih => exact ih.cons _
  | case3 parent depth place met child rest hmet hopen below ihbelow ihbeside =>
    have hopened : ∀ rows, opened limit (⟨parent, place, depth, child, false⟩ :: rows) =
        child :: opened limit rows := fun rows => by simp [opened, hopen]
    rw [hopened, opened_append, List.map_cons, List.map_append, edgesFrom, List.flatMap_cons,
      List.flatMap_append]
    refine ((ihbelow.append ihbeside).trans ?_).cons _
    -- the includes of the child come in front of those beside it
    rw [← List.append_assoc]
    refine (List.perm_append_comm.append_right _).trans (.of_eq ?_)
    simp only [edgesOf, List.append_assoc]
    rfl
  | case4 parent depth place met child rest hmet hcut ih =>
    have hopened : ∀ rows, opened limit (⟨parent, place, depth, child, false⟩ :: rows) =
        opened limit rows := fun rows => by simp [opened, hcut]
    rw [hopened]
    exact ih.cons _

end Expand

/-! ### Drawing follows the recursion -/

section Draw

variable {g : Graph} {limit : Int} {parent child key : Text} {depth place : ℕ} {met : Finset Text}
  {children : List Text} {items : List Item} {i : Item}

/-- The items of a graph that were not met. -/
def freshItems (g : Graph) (met : Finset Text) : List Item := g.items.filter fun i => i.key ∉ met

theorem freshItems_insert (g : Graph) (met : Finset Text) (key : Text) :
    freshItems g (insert key met) = (freshItems g met).filter fun i => i.key ≠ key := by
  rw [freshItems, freshItems, List.filter_filter]
  refine List.filter_congr fun i _ => ?_
  simp [not_or]

theorem take?_of_forall_ne (h : ∀ i ∈ items, i.key ≠ key) : take? key items = none := by
  induction items with
  | nil => rfl
  | cons i items ih =>
    obtain ⟨hi, hitems⟩ := List.forall_mem_cons.mp h
    rw [take?, if_neg hi, ih hitems, Option.map_none]

/-- Under distinct keys, taking an item leaves all others. -/
theorem take?_of_mem (hn : (items.map Item.key).Nodup) (hi : i ∈ items) :
    take? i.key items = some (i, items.filter fun j => j.key ≠ i.key) := by
  induction items with
  | nil => cases hi
  | cons j items ih =>
    rw [List.map_cons, List.nodup_cons] at hn
    have hne : ∀ k ∈ items, k.key ≠ j.key := fun k hk e => hn.1 (e ▸ List.mem_map_of_mem hk)
    rcases List.mem_cons.mp hi with rfl | hi
    · have hothers : items.filter (fun k => k.key ≠ i.key) = items :=
        List.filter_eq_self.mpr fun k hk => decide_eq_true (hne k hk)
      rw [take?, if_pos rfl, List.filter_cons_of_neg (by simp), hothers]
    · have hij : j.key ≠ i.key := (hne i hi).symm
      rw [take?, if_neg hij, ih hn.2 hi, Option.map_some, List.filter_cons, if_pos (by simpa using hij)]

/-- A file that was met is not among the items that were not. -/
theorem take?_freshItems_of_mem (h : child ∈ met) : take? child (freshItems g met) = none := by
  refine take?_of_forall_ne fun i hi e => ?_
  have hnew : i.key ∉ met := by simpa using (List.mem_filter.mp hi).2
  exact hnew (e ▸ h)

/-- Taking a file that was not met leaves those that are not met once it is. -/
theorem take?_freshItems (hn : g.keys.Nodup) (h : child ∉ met) (hfind : g.find? child = some i) :
    take? child (freshItems g met) = some (i, freshItems g (insert child met)) := by
  obtain rfl : i.key = child := Graph.key_of_find? hfind
  have hi : i ∈ freshItems g met :=
    List.mem_filter.mpr ⟨List.mem_of_find?_eq_some hfind, by simpa using h⟩
  have hnodup : ((freshItems g met).map Item.key).Nodup := hn.sublist (List.filter_sublist.map _)
  rw [take?_of_mem hnodup hi, freshItems_insert]

/-- A file that was met is drawn with the mark and not opened. -/
theorem draw_of_take?_eq_none {indent : Text} {fresh : List Item} {frames : List Frame}
    {rest : List Text} (h : take? child fresh = none) :
    draw g limit indent fresh (⟨depth, child :: rest⟩ :: frames) =
      (Text.times depth indent ++ g.pathOf child ++ ' ' :: repeatedMark) ::
        draw g limit indent fresh (⟨depth, rest⟩ :: frames) := by
  rw [draw]
  split
  · rfl
  · next found fresh' hsome =>
    rw [h] at hsome
    cases hsome

theorem Row.text_of_find? {indent : Text} (hfind : g.find? child = some i) :
    Row.text g indent ⟨parent, place, depth, child, false⟩ = Text.times depth indent ++ i.path := by
  simp [Row.text, Graph.pathOf, hfind]

/-- **Drawing follows the recursion.** -/
theorem draw_eq_expand (hg : g.WellFormed) (indent : Text) (frames : List Frame)
    (hchildren : ∀ child ∈ children, g.has child) :
    draw g limit indent (freshItems g met) (⟨depth, children⟩ :: frames) =
      (expand g limit parent depth place met children).map (Row.text g indent) ++
        draw g limit indent
          (freshItems g (met ∪ keysOf (expand g limit parent depth place met children))) frames := by
  -- each frame that is opened lies on what is left of the frame below it, so the frames are arbitrary
  fun_induction expand g limit parent depth place met children generalizing frames with
  | case1 parent depth place met =>
    have hmet : met ∪ keysOf [] = met := Finset.union_empty met
    rw [Forest.draw_done, hmet, List.map_nil, List.nil_append]
  | case2 parent depth place met child rest hmet ih =>
    obtain ⟨-, hrest⟩ := List.forall_mem_cons.mp hchildren
    rw [draw_of_take?_eq_none (take?_freshItems_of_mem hmet), ih frames hrest, keysOf_cons,
      Finset.union_insert, ← Finset.insert_union, Finset.insert_eq_of_mem hmet]
    rfl
  | case3 parent depth place met child rest hmet hopen below ihbelow ihbeside =>
    obtain ⟨hchild, hrest⟩ := List.forall_mem_cons.mp hchildren
    obtain ⟨i, hfind⟩ := Option.isSome_iff_exists.mp hchild
    have hincludes : g.includesOf child = i.includes := by rw [Graph.includesOf, hfind]
    have hbelow : ∀ c ∈ g.includesOf child, g.has c := fun _ hc => Graph.has_of_mem_includesOf hg hc
    rw [Forest.draw_of_take? (take?_freshItems hg.nodup hmet hfind), if_pos hopen, ← hincludes,
      ihbelow (⟨depth, rest⟩ :: frames) hbelow, ihbeside frames hrest, List.map_cons,
      Row.text_of_find? hfind, List.map_append, keysOf_cons, keysOf_append, Finset.union_insert,
      ← Finset.insert_union, ← Finset.union_assoc]
    simp only [List.cons_append, List.append_assoc]
    rfl
  | case4 parent depth place met child rest hmet hcut ih =>
    obtain ⟨hchild, hrest⟩ := List.forall_mem_cons.mp hchildren
    obtain ⟨i, hfind⟩ := Option.isSome_iff_exists.mp hchild
    rw [Forest.draw_of_take? (take?_freshItems hg.nodup hmet hfind), if_neg hcut, ih frames hrest,
      List.map_cons, Row.text_of_find? hfind, keysOf_cons, Finset.union_insert,
      ← Finset.insert_union]
    rfl

end Draw

end Drawing

open Drawing

/-- The **outline** of a file: the rows of its includes, where it was drawn itself. -/
def Graph.outline (g : Graph) (limit : Int) (root : Text) : List Row :=
  expand g limit root 1 0 {root} (g.includesOf root)

/-- **The lines of a tree are the rows of its outline**, behind the line of its root. -/
theorem Graph.treeLines_eq_outline {g : Graph} (hg : g.WellFormed) (limit : Int) (indent : Text)
    {root : Item} (hroot : root ∈ g.items) : g.treeLines limit indent root =
      root.path :: (g.outline limit root.key).map (Row.text g indent) := by
  have hfind := find?_key_of_mem hg.nodup hroot
  have hincludes : g.includesOf root.key = root.includes := by rw [includesOf, hfind]
  have hfresh : (g.items.filter fun i => i.key ≠ root.key) = freshItems g {root.key} :=
    List.filter_congr fun i _ => by simp
  have hdraw : draw g limit indent (freshItems g {root.key}) [⟨1, root.includes⟩] =
      (expand g limit root.key 1 0 {root.key} root.includes).map (Row.text g indent) := by
    rw [draw_eq_expand hg indent [] (hg.closed root hroot), draw, List.append_nil]
  rw [treeLines, hfresh, hdraw, outline, hincludes]

end IncludeTrace
