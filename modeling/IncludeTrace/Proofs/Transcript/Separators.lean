import IncludeTrace.Proofs.Path.Spelling
import IncludeTrace.Proofs.Transcript.Independence

/-!
# Merging under other separators

Keys do not depend on separators, so whether a merge does is decided where paths are resolved
against directories: that joins a reported path, and the directory of the translation unit, as they
are spelled. On a disk without backslashes in its names, separators do not show in the merged graph
if every reported path is absolute, or has no backslash and belongs to a translation unit that has
none or is foreign, or names a file in no directory however it is spelled (`Transcript.Neutral`): then
a transcript and the same one in slashes make graphs with the same adjacency, or both fail
(`Graph.merge_slashed`).

Otherwise they may show: `Graph.merge_slashed_unit` and `Graph.merge_slashed_report`.
-/

namespace IncludeTrace

open Merge

/-! ### Graphs of one shape -/

/-- The keys that a link connects. -/
def Link.ends (cwd : Text) (l : Link) : Text × Text := (l.parent, l.child cwd)

namespace Graph

variable {g g' : Graph} {cwd path path' parent child : Text}

theorem keys_eq_adjacency (g : Graph) : g.keys = g.adjacency.map Prod.fst := by
  rw [keys, adjacency, List.map_map]
  rfl

theorem has_congr (h : g.adjacency = g'.adjacency) (key : Text) : g.has key = g'.has key := by
  rw [Bool.eq_iff_iff, has_iff_mem_keys, has_iff_mem_keys, keys_eq_adjacency, keys_eq_adjacency, h]

theorem adjacency_ensure_congr (h : g.adjacency = g'.adjacency)
    (hkey : Path.key cwd path = Path.key cwd path') :
    (g.ensure cwd path).adjacency = (g'.ensure cwd path').adjacency := by
  rw [ensure, ensure, hkey, has_congr h]
  split
  · exact h
  · simp only [adjacency, List.map_append] at h ⊢
    rw [h]
    rfl

theorem adjacency_addInclude_congr (h : g.adjacency = g'.adjacency) :
    (g.addInclude parent child).adjacency = (g'.addInclude parent child).adjacency := by
  -- adjacency alone says what an include changes in it
  have hadd : ∀ g : Graph, (g.addInclude parent child).adjacency = g.adjacency.map fun entry =>
      if entry.1 = parent then (entry.1, entry.2 ++ [child]) else entry := by
    intro g
    simp only [adjacency, addInclude, List.map_map]
    refine List.map_congr_left fun i _ => ?_
    simp only [Function.comp_apply]
    split <;> rfl
  rw [hadd, hadd, h]

/-- Links between the same keys change adjacency alike. -/
theorem adjacency_linkAll_congr {links links' : List Link}
    (hlinks : links.map (Link.ends cwd) = links'.map (Link.ends cwd))
    (h : g.adjacency = g'.adjacency) :
    (g.linkAll cwd links).adjacency = (g'.linkAll cwd links').adjacency := by
  induction links generalizing links' g g' with
  | nil =>
    obtain rfl : links' = [] := by simpa using hlinks.symm
    exact h
  | cons l rest ih =>
    cases links' with
    | nil => cases hlinks
    | cons l' rest' =>
      rw [List.map_cons, List.map_cons, List.cons.injEq, Link.ends, Link.ends,
        Prod.mk.injEq] at hlinks
      obtain ⟨⟨hparent, hchild⟩, hrest⟩ := hlinks
      rw [linkAll_cons, linkAll_cons]
      refine ih hrest ?_
      rw [link, link, hparent, hchild]
      exact adjacency_addInclude_congr (adjacency_ensure_congr h hchild)

end Graph

/-! ### Resolving -/

section Resolve

variable {view : FileView} {directories : List Text} {path : Text}

theorem resolve_of_isAbsolute (h : Path.isAbsolute path = true) :
    resolve view directories path = path := by
  rw [resolve, if_pos h]

/-- A path that names a file in no directory stays as it is. -/
theorem resolve_of_forall (h : ∀ d ∈ directories, view.isFile (Path.join d path) = false) :
    resolve view directories path = path := by
  have hnone : (directories.map fun d => Path.join d path).find? view.isFile = none := by
    simpa using h
  rw [resolve, hnone]
  split <;> rfl

/-- On a disk without backslashes, so does a path with one. -/
theorem resolve_of_backslash_mem (hdisk : ∀ q, view.isFile q = true → '\\' ∉ q)
    (h : '\\' ∈ path) : resolve view directories path = path := by
  refine resolve_of_forall fun d _ => Bool.eq_false_iff.mpr fun hfile => hdisk _ hfile ?_
  rw [Path.join]
  split
  · exact h
  · split <;> simp [h]

end Resolve

/-- The trace line with slashes for backslashes. -/
def TraceLine.slashed (line : TraceLine) : TraceLine := ⟨line.depth, Path.slashed line.path⟩

namespace Transcript

/-- A transcript is another one **in slashes** if it is of the slashed translation unit, searches the
same directories and has the same trace lines, with their paths slashed. -/
structure InSlashes (t t' : Transcript) : Prop where
  unit_eq : t'.unit = Path.slashed t.unit
  directories_eq : t'.directories = t.directories
  lines_eq : t'.lines = t.lines.map TraceLine.slashed

/-- A reported path is **neutral** in a transcript if its separators and those of the translation unit
cannot show: it is absolute in slashes; or neither it nor a unit that is not foreign has a backslash;
or in slashes it names a file in no directory that is searched. -/
def Neutral (view : FileView) (t : Transcript) (path : Text) : Prop :=
  Path.isAbsolute (Path.slashed path) = true ∨
    ('\\' ∉ path ∧ (Path.isForeign t.unit = true ∨ '\\' ∉ t.unit)) ∨
    ∀ d ∈ Path.sourceDirectory view.cwd t.unit ::
        Path.sourceDirectory view.cwd (Path.slashed t.unit) :: t.directories,
      view.isFile (Path.join d (Path.slashed path)) = false

instance (view : FileView) (t : Transcript) (path : Text) : Decidable (t.Neutral view path) :=
  inferInstanceAs (Decidable (_ ∨ _ ∨ ∀ d ∈ _, _))

variable {view : FileView} {t t' : Transcript}

/-- The directory of a foreign translation unit, or of one without backslashes, does not depend on
separators. -/
theorem sourceDirectory_slashed {cwd unit : Text}
    (h : Path.isForeign unit = true ∨ '\\' ∉ unit) :
    Path.sourceDirectory cwd (Path.slashed unit) = Path.sourceDirectory cwd unit := by
  rcases h with h | h
  · rw [Path.sourceDirectory, Path.sourceDirectory, if_pos h,
      if_pos ((Path.isForeign_slashed unit).trans h), Path.slashed_slashed]
  · rw [Path.slashed_of_not_mem h]

/-- **A neutral path stands for a file with the same key** in the transcript in slashes. -/
theorem InSlashes.keyOf_slashed (hslashes : t.InSlashes t')
    (hdisk : ∀ q, view.isFile q = true → '\\' ∉ q) {line : TraceLine}
    (h : t.Neutral view line.path) :
    (Setting.ofUnit view t'.unit t'.directories).keyOf line.slashed =
      (Setting.ofUnit view t.unit t.directories).keyOf line := by
  obtain ⟨hunit, hdirectories, -⟩ := hslashes
  have hkey : ∀ ds ds', resolve view ds' (Path.slashed line.path) = Path.slashed line.path →
      resolve view ds line.path = line.path →
      Path.key view.cwd (resolve view ds' (Path.slashed line.path)) =
        Path.key view.cwd (resolve view ds line.path) := by
    intro ds ds' h h'
    rw [h, h', Path.key_slashed]
  rw [Setting.keyOf, Setting.keyOf, Setting.pathOf, Setting.pathOf, Setting.ofUnit, Setting.ofUnit,
    hunit, hdirectories]
  by_cases hback : '\\' ∈ line.path
  · -- the path stays as it is, so it is enough that it does so in slashes
    refine hkey _ _ ?_ (resolve_of_backslash_mem hdisk hback)
    rcases h with habsolute | ⟨hpath, -⟩ | hnowhere
    · exact resolve_of_isAbsolute habsolute
    · exact absurd hback hpath
    · exact resolve_of_forall (List.forall_mem_cons.mp hnowhere).2
  · have hpath := Path.slashed_of_not_mem hback
    rw [Neutral, hpath] at h
    simp only [TraceLine.slashed, hpath] at hkey ⊢
    rcases h with habsolute | ⟨-, hunit⟩ | hnowhere
    · exact hkey _ _ (resolve_of_isAbsolute habsolute) (resolve_of_isAbsolute habsolute)
    · rw [sourceDirectory_slashed hunit]
    · obtain ⟨hown, hslashed⟩ := List.forall_mem_cons.mp hnowhere
      obtain ⟨-, hothers⟩ := List.forall_mem_cons.mp hslashed
      exact hkey _ _ (resolve_of_forall hslashed)
        (resolve_of_forall (List.forall_mem_cons.mpr ⟨hown, hothers⟩))

end Transcript

/-- The links of changed lines connect the same keys if depths, keys and the translation unit stay. -/
theorem Merge.Setting.ends_links_map {s s' : Setting} (hroot : s'.root = s.root)
    (change : TraceLine → TraceLine)
    (hdepth : ∀ line, (change line).depth = line.depth) {lines : List TraceLine}
    (hkey : ∀ line ∈ lines, s'.keyOf (change line) = s.keyOf line) (trail : List Text) :
    (s'.links trail (lines.map change)).map (Link.ends s'.view.cwd) =
      (s.links trail lines).map (Link.ends s.view.cwd) := by
  induction lines generalizing trail with
  | nil => rfl
  | cons line rest ih =>
    -- the trail is made of keys, so it stays the same on both sides
    have hfirst := hkey line List.mem_cons_self
    have hends : Link.ends s'.view.cwd (s'.linkOn trail (change line)) =
        Link.ends s.view.cwd (s.linkOn trail line) := by
      refine Prod.ext ?_ hfirst
      rw [Link.ends, Link.ends, Setting.linkOn, Setting.linkOn, Setting.parentOn, Setting.parentOn,
        hdepth, hroot]
    have hdescend : s'.descend trail (change line) = s.descend trail line := by
      rw [Setting.descend, Setting.descend, hdepth, hfirst]
    rw [List.map_cons, Setting.links, Setting.links, List.map_cons, List.map_cons, hends, hdescend,
      ih (fun l hl => hkey l (List.mem_cons_of_mem _ hl))]

namespace Graph

/-- **Separators do not show in what is merged**, if every reported path is neutral.

On a disk without backslashes in its names, a transcript of neutral paths and the same transcript in
slashes, merged into one graph, give the same keys with the same include lists, and both fail or
neither. -/
theorem merge_slashed (view : FileView) (hdisk : ∀ q, view.isFile q = true → '\\' ∉ q) (g : Graph)
    (t t' : Transcript) (hslashes : t.InSlashes t')
    (hneutral : ∀ line ∈ t.lines, t.Neutral view line.path) :
    (g.merge view t'.unit t'.directories t'.marker t'.text).graph.adjacency =
        (g.merge view t.unit t.directories t.marker t.text).graph.adjacency ∧
      ((∃ fault, (g.merge view t'.unit t'.directories t'.marker t'.text).verdict = .error fault) ↔
        ∃ fault, (g.merge view t.unit t.directories t.marker t.text).verdict = .error fault) := by
  have hstarts : StartsDirect t'.lines ↔ StartsDirect t.lines := by
    rw [hslashes.lines_eq]
    cases t.lines <;> simp [StartsDirect, TraceLine.slashed]
  have hroot : (Setting.ofUnit view t'.unit t'.directories).root =
      (Setting.ofUnit view t.unit t.directories).root := by
    rw [Setting.ofUnit, Setting.ofUnit, hslashes.unit_eq, Path.key_slashed]
  have hkeys : ∀ line ∈ t.lines,
      (Setting.ofUnit view t'.unit t'.directories).keyOf line.slashed =
        (Setting.ofUnit view t.unit t.directories).keyOf line :=
    fun line hline => hslashes.keyOf_slashed hdisk (hneutral line hline)
  refine ⟨?_, ?_⟩
  · rw [merge_eq_linkAll, merge_eq_linkAll]
    refine adjacency_linkAll_congr ?_ (adjacency_ensure_congr rfl ?_)
    · rw [Transcript.links, Transcript.links]
      by_cases hd : StartsDirect t.lines
      · rw [if_pos hd, if_pos (hstarts.mpr hd), hslashes.lines_eq]
        exact Setting.ends_links_map hroot TraceLine.slashed (fun _ => rfl) hkeys []
      · rw [if_neg hd, if_neg (mt hstarts.mp hd)]
    · rw [hslashes.unit_eq, Path.key_slashed]
  · exact merge_fails_iff.trans ((not_congr hstarts).trans merge_fails_iff.symm)

/-- A unit on a drive, with a path that is found in a directory, one on another drive, and one that is
found nowhere. -/
theorem merge_slashed_drives :
    let view : FileView := ⟨"/work".toList, fun q => q = "/work/inc/x.h".toList⟩
    let t : Transcript := ⟨"C:\\src\\A.cpp".toList, ["/work/inc".toList], ['>'],
      ">x.h\n> D:\\y\\z.h\n>no\\such.h".toList⟩
    let t' : Transcript := ⟨"C:/src/A.cpp".toList, ["/work/inc".toList], ['>'],
      ">x.h\n> D:/y/z.h\n>no/such.h".toList⟩
    t.InSlashes t' ∧ (∀ line ∈ t.lines, t.Neutral view line.path) ∧
      (empty.merge view t'.unit t'.directories t'.marker t'.text).graph.adjacency =
        (empty.merge view t.unit t.directories t.marker t.text).graph.adjacency := by
  intro view t t'
  have hdisk : ∀ q, view.isFile q = true → '\\' ∉ q := by
    intro q hq
    obtain rfl := of_decide_eq_true hq
    decide
  have hslashes : t.InSlashes t' := ⟨by decide +kernel, rfl, by decide +kernel⟩
  have hneutral : ∀ line ∈ t.lines, t.Neutral view line.path := by decide +kernel
  exact ⟨hslashes, hneutral, (merge_slashed view hdisk empty t t' hslashes hneutral).1⟩

/-- **The backslashes of a translation unit show**: the directory that they name is not searched. -/
theorem merge_slashed_unit :
    let view : FileView := ⟨"/work".toList, fun q => q = "/work/src/local.h".toList⟩
    let t : Transcript := ⟨"src\\a.cpp".toList, [], ['>'], ">local.h".toList⟩
    let t' : Transcript := ⟨"src/a.cpp".toList, [], ['>'], ">local.h".toList⟩
    (∀ q, view.isFile q = true → '\\' ∉ q) ∧ t.InSlashes t' ∧
      (empty.merge view t.unit t.directories t.marker t.text).graph.adjacency =
        [("/work/src/a.cpp".toList, ["/work/local.h".toList]), ("/work/local.h".toList, [])] ∧
      (empty.merge view t'.unit t'.directories t'.marker t'.text).graph.adjacency =
        [("/work/src/a.cpp".toList, ["/work/src/local.h".toList]),
          ("/work/src/local.h".toList, [])] := by
  intro view t t'
  refine ⟨fun q hq => ?_, ⟨?_, rfl, ?_⟩, ?_, ?_⟩
  · obtain rfl := of_decide_eq_true hq
    decide
  all_goals decide +kernel

/-- **The backslashes of a reported path show**: it is not found in the directory that has it. -/
theorem merge_slashed_report :
    let view : FileView := ⟨"/work".toList, fun q => q = "/work/inc/sub/x.h".toList⟩
    let t : Transcript := ⟨"src/a.cpp".toList, ["/work/inc".toList], ['>'], ">sub\\x.h".toList⟩
    let t' : Transcript := ⟨"src/a.cpp".toList, ["/work/inc".toList], ['>'], ">sub/x.h".toList⟩
    (∀ q, view.isFile q = true → '\\' ∉ q) ∧ t.InSlashes t' ∧
      (empty.merge view t.unit t.directories t.marker t.text).graph.adjacency =
        [("/work/src/a.cpp".toList, ["/work/sub/x.h".toList]), ("/work/sub/x.h".toList, [])] ∧
      (empty.merge view t'.unit t'.directories t'.marker t'.text).graph.adjacency =
        [("/work/src/a.cpp".toList, ["/work/inc/sub/x.h".toList]),
          ("/work/inc/sub/x.h".toList, [])] := by
  intro view t t'
  refine ⟨fun q hq => ?_, ⟨?_, rfl, ?_⟩, ?_, ?_⟩
  · obtain rfl := of_decide_eq_true hq
    decide
  all_goals decide +kernel

end Graph

end IncludeTrace
