import IncludeTrace.Proofs.Graph.Growth
import IncludeTrace.Transcript.Merge

/-!
# Trails

A merge asks the graph where to descend: into the include that was added last. The **trail** of a
trace line says the same without a graph. It holds the keys from the outermost include of the
translation unit down to the file of the line itself, so a line of depth `d` keeps the first `d` keys
of the trail before it and puts its own key behind them. A trail that is shorter than `d` is kept
whole, which is descending by one level.

`Progress.Follows` is the invariant that ties a merge under way to a trail. A line that may be read
keeps it (`Progress.step_of_follows`), so a whole run does (`Progress.run_of_follows`): it makes the
links that the trails ask for, `Setting.links`, in which no graph occurs. The one line that may not
be read is a nested one on the empty trail (`Progress.addAll_of_nested`).
-/

namespace IncludeTrace.Merge

/-- The first of some lines, if there is one, reports a direct include. -/
def StartsDirect (lines : List TraceLine) : Prop := ∀ line ∈ lines.head?, line.depth = 0

instance (lines : List TraceLine) : Decidable (StartsDirect lines) :=
  inferInstanceAs (Decidable (∀ line ∈ lines.head?, line.depth = 0))

theorem not_startsDirect_iff {lines : List TraceLine} :
    ¬ StartsDirect lines ↔ ∃ first rest, lines = first :: rest ∧ 0 < first.depth := by
  cases lines with
  | nil => simp [StartsDirect]
  | cons first rest => simp [StartsDirect, Nat.pos_iff_ne_zero]

/-! ### Trails and the links they ask for -/

/-- The path that a trace line stands for. -/
def Setting.pathOf (s : Setting) (line : TraceLine) : Text := resolve s.view s.directories line.path

/-- The key of the file that a trace line reports. -/
def Setting.keyOf (s : Setting) (line : TraceLine) : Text := Path.key s.view.cwd (s.pathOf line)

/-- The **trail** of a line, after a line with the trail `trail`. -/
def Setting.descend (s : Setting) (trail : List Text) (line : TraceLine) : List Text :=
  trail.take line.depth ++ [s.keyOf line]

/-- The trail of the last of some lines. -/
def Setting.trail (s : Setting) (lines : List TraceLine) : List Text := lines.foldl s.descend []

/-- The key of the file that includes the file of a line. -/
def Setting.parentOn (s : Setting) (trail : List Text) (line : TraceLine) : Text :=
  (trail.take line.depth).getLast?.getD s.root

/-- The link that a line asks for. -/
def Setting.linkOn (s : Setting) (trail : List Text) (line : TraceLine) : Link :=
  ⟨s.parentOn trail line, s.pathOf line⟩

/-- The links that lines ask for. -/
def Setting.links (s : Setting) (trail : List Text) : List TraceLine → List Link
  | [] => []
  | line :: rest => s.linkOn trail line :: s.links (s.descend trail line) rest

/-- The links that a merge makes: the tip after each line that is read with the path of the line. -/
def Progress.links (s : Setting) (p : Progress) : List TraceLine → List Link
  | [] => []
  | line :: rest =>
    match p.add s line with
    | .ok p' => ⟨p'.tip s, s.pathOf line⟩ :: p'.links s rest
    | .error _ => []

/-! ### The invariant -/

/-- A merge under way **follows** a trail: its chain is the trail without its last key, this last key
is the include that the tip got last, and the graph has every key that the merge may come back to.
The trail is empty as long as nothing was read. -/
structure Progress.Follows (s : Setting) (p : Progress) (trail : List Text) : Prop where
  chain_eq : p.chain = trail.dropLast.reverse
  edges_eq_zero : p.edges = 0 ↔ trail = []
  last_include : ∀ key ∈ trail.getLast?, (p.graph.includesOf (p.tip s)).getLast? = some key
  known : ∀ key ∈ s.root :: trail, p.graph.has key

variable {s : Setting} {p : Progress} {trail : List Text} {line : TraceLine}
  {lines : List TraceLine}

/-- A merge at its beginning follows the empty trail. -/
theorem Progress.follows_start (g : Graph) (view : FileView) (unit : Text)
    (directories : List Text) :
    (Progress.start g view.cwd unit).Follows (.ofUnit view unit directories) [] where
  chain_eq := rfl
  edges_eq_zero := iff_of_true rfl rfl
  last_include := by simp
  known := by simp [Progress.start, Setting.ofUnit]

/-- The key at the end of the chain that a line hangs on is the parent of the line. -/
theorem Setting.parentOn_eq_headD (s : Setting) (trail : List Text) (line : TraceLine) :
    s.parentOn trail line = (trail.take line.depth).reverse.headD s.root := by
  rw [Setting.parentOn, ← List.head?_reverse, List.headD_eq_head?_getD]

/-- A line hangs on the translation unit or on a file of the trail. -/
theorem Setting.parentOn_mem (s : Setting) (trail : List Text) (line : TraceLine) :
    s.parentOn trail line ∈ s.root :: trail := by
  rw [Setting.parentOn]
  cases hlast : (trail.take line.depth).getLast? with
  | none => exact List.mem_cons_self
  | some key =>
    exact List.mem_cons_of_mem _ (List.mem_of_mem_take (List.mem_of_getLast? hlast))

/-- On a trail that is not empty every line may be read, whatever its depth; on the empty one, a
direct include. Either way it hangs on the part of the trail above it. -/
theorem Progress.chainFor_of_follows (h : p.Follows s trail) {depth : ℕ}
    (hd : trail = [] → depth = 0) : p.chainFor s depth = .ok (trail.take depth).reverse := by
  rw [Progress.chainFor, h.chain_eq]
  rcases List.eq_nil_or_concat trail with rfl | ⟨above, last, rfl⟩
  · simp [hd rfl]
  · rw [List.concat_eq_append, List.dropLast_concat, List.length_reverse]
    have hedges : p.edges ≠ 0 := fun e => by simpa using h.edges_eq_zero.mp e
    have hlast : (p.graph.includesOf (p.tip s)).getLast? = some last :=
      h.last_include last (by simp)
    split
    · next hlt =>
      obtain ⟨n, hn⟩ := Nat.exists_eq_succ_of_ne_zero hedges
      have htake : (above ++ [last]).take depth = above ++ [last] :=
        List.take_of_length_le (by rw [List.length_append, List.length_singleton]; omega)
      simp [hn, hlast, htake]
    · next hge =>
      have hle : depth ≤ above.length := by omega
      rw [List.drop_reverse, List.take_append_of_le_length hle, Nat.sub_sub_self hle]

/-! ### One line -/

/-- Reading a line whose chain is known. -/
theorem Progress.add_of_chainFor {chain : List Text} (h : p.chainFor s line.depth = .ok chain) :
    ∃ p', p.add s line = .ok p' ∧ p'.chain = chain ∧ p'.tip s = chain.headD s.root ∧
      p'.graph = p.graph.link s.view.cwd ⟨chain.headD s.root, s.pathOf line⟩ ∧
      p'.edges = p.edges + 1 ∧ p'.read = p.read + 1 ∧ p'.deepest = max p.deepest line.depth := by
  rw [Progress.add, h]
  exact ⟨_, rfl, rfl, rfl, rfl, rfl, rfl, rfl⟩

/-- **Step.** A line that may be read makes the link that the trail asks for, is counted, and leaves
the merge on the trail of the line. -/
theorem Progress.step_of_follows (h : p.Follows s trail) (line : TraceLine)
    (hd : trail = [] → line.depth = 0) :
    ∃ p', p.add s line = .ok p' ∧ p'.Follows s (s.descend trail line) ∧
      p'.tip s = s.parentOn trail line ∧
      p'.graph = p.graph.link s.view.cwd (s.linkOn trail line) ∧ p.graph.has (p'.tip s) ∧
      p'.edges = p.edges + 1 ∧ p'.read = p.read + 1 ∧ p'.deepest = max p.deepest line.depth := by
  obtain ⟨p', hadd, hchain, htip, hgraph, hedges, hread, hdeepest⟩ :=
    Progress.add_of_chainFor (Progress.chainFor_of_follows h hd)
  rw [← Setting.parentOn_eq_headD] at htip hgraph
  have hparent : p.graph.has (s.parentOn trail line) := h.known _ (s.parentOn_mem trail line)
  refine ⟨p', hadd, ⟨?_, ?_, ?_, ?_⟩, htip, hgraph, htip ▸ hparent, hedges, hread, hdeepest⟩
  · rw [hchain, Setting.descend, List.dropLast_concat]
  · exact iff_of_false (by omega) (by simp [Setting.descend])
  · -- the include that was just added is the one a deeper line descends into
    intro key hkey
    obtain rfl : s.keyOf line = key := by simpa [Setting.descend] using hkey
    rw [htip, hgraph, Graph.includesOf_link hparent, if_pos rfl]
    simp [Link.child, Setting.keyOf]
  · intro key hkey
    rw [hgraph, Graph.has_link]
    simp only [Setting.descend, List.mem_cons, List.mem_append, List.not_mem_nil, or_false] at hkey
    rcases hkey with rfl | hkey | rfl
    · exact .inl (h.known _ List.mem_cons_self)
    · exact .inl (h.known _ (List.mem_cons_of_mem _ (List.mem_of_mem_take hkey)))
    · exact .inr rfl

/-! ### Runs -/

/-- What a run over lines comes to that were all read: it makes the links of their trails, and counts
the lines and their greatest depth. -/
structure Progress.Reads (s : Setting) (p : Progress) (trail : List Text) (lines : List TraceLine)
    (p' : Progress) : Prop where
  run : p.addAll s lines = (p', none)
  follows : p'.Follows s (lines.foldl s.descend trail)
  links_eq : p.links s lines = s.links trail lines
  graph_eq : p'.graph = p.graph.linkAll s.view.cwd (s.links trail lines)
  grounded : p.graph.Grounded s.view.cwd (s.links trail lines)
  edges_eq : p'.edges = p.edges + lines.length
  read_eq : p'.read = p.read + lines.length
  deepest_eq : p'.deepest = max p.deepest ((lines.map TraceLine.depth).foldr max 0)

/-- **Run.** Lines are all read if the first one may be. -/
theorem Progress.run_of_follows (h : p.Follows s trail) (lines : List TraceLine)
    (hd : trail = [] → StartsDirect lines) : ∃ p', p.Reads s trail lines p' := by
  induction lines generalizing p trail with
  | nil => exact ⟨p, rfl, h, rfl, rfl, .nil, rfl, rfl, by simp⟩
  | cons line rest ih =>
    obtain ⟨p₁, hadd, hfollows, htip, hgraph, hhas, hedges, hread, hdeepest⟩ :=
      Progress.step_of_follows h line fun e => hd e line rfl
    -- behind a line that was read the trail is never empty
    obtain ⟨p', hp'⟩ := ih hfollows fun e => by simp [Setting.descend] at e
    rw [htip] at hhas
    refine ⟨p', ?_, hp'.follows, ?_, ?_, ?_, ?_, ?_, ?_⟩
    · rw [Progress.addAll, hadd]
      exact hp'.run
    · rw [Progress.links, hadd, Setting.links, Setting.linkOn, ← htip, ← hp'.links_eq]
    · rw [hp'.graph_eq, hgraph, Setting.links, Graph.linkAll_cons]
    · exact .cons hhas (hgraph ▸ hp'.grounded)
    · rw [hp'.edges_eq, hedges, List.length_cons]
      omega
    · rw [hp'.read_eq, hread, List.length_cons]
      omega
    · rw [hp'.deepest_eq, hdeepest, List.map_cons, List.foldr_cons, Nat.max_assoc]

/-- A transcript that starts directly is read to its end, from whatever graph. -/
theorem Progress.reads_of_startsDirect (g : Graph) (view : FileView) (unit : Text)
    (directories : List Text) (h : StartsDirect lines) :
    ∃ p, (Progress.start g view.cwd unit).Reads (.ofUnit view unit directories) [] lines p :=
  Progress.run_of_follows (Progress.follows_start g view unit directories) lines fun _ => h

/-! ### The line at fault -/

/-- A nested line on the empty trail is at fault. -/
theorem Progress.add_of_nested (h : p.Follows s []) (hd : 0 < line.depth) :
    p.add s line = .error ⟨line.depth, p.graph.pathOf s.root⟩ := by
  have hchain : p.chain = [] := h.chain_eq
  have hedges : p.edges = 0 := h.edges_eq_zero.mpr rfl
  have hfault : p.chainFor s line.depth = .error ⟨line.depth, p.graph.pathOf s.root⟩ := by
    simp [Progress.chainFor, Progress.tip, hchain, hedges, hd]
  rw [Progress.add, hfault]
  rfl

/-- It ends the run before anything has changed. -/
theorem Progress.addAll_of_nested (h : p.Follows s []) (hd : 0 < line.depth)
    (lines : List TraceLine) :
    p.addAll s (line :: lines) = (p, some ⟨line.depth, p.graph.pathOf s.root⟩) := by
  rw [Progress.addAll, Progress.add_of_nested h hd]

/-- So a run from the beginning that read all its lines is on the trail of the last one. -/
theorem Progress.follows_of_addAll {p' : Progress} (h : p.Follows s [])
    (hrun : p.addAll s lines = (p', none)) : p'.Follows s (s.trail lines) := by
  have hdirect : StartsDirect lines := by
    by_contra hd
    obtain ⟨first, rest, rfl, hpos⟩ := not_startsDirect_iff.mp hd
    rw [Progress.addAll_of_nested h hpos rest] at hrun
    cases hrun
  obtain ⟨p'', hp''⟩ := Progress.run_of_follows h lines fun _ => hdirect
  obtain rfl : p'' = p' := (Prod.mk.inj (hp''.run.symm.trans hrun)).1
  exact hp''.follows

/-- It makes no link, and no line behind it does. -/
theorem Progress.links_of_nested (h : p.Follows s []) (hd : 0 < line.depth)
    (lines : List TraceLine) :
    p.links s (line :: lines) = [] := by
  rw [Progress.links, Progress.add_of_nested h hd]

end IncludeTrace.Merge

namespace IncludeTrace.Graph

open Merge

/-! ### Whole transcripts -/

variable {g : Graph} {view : FileView} {unit marker text : Text} {directories : List Text}

/-- The links of a transcript that starts directly can all be made, from whatever graph. -/
theorem grounded_links (h : StartsDirect (TraceLine.ofText marker text)) :
    (g.ensure view.cwd unit).Grounded view.cwd
      ((Setting.ofUnit view unit directories).links [] (TraceLine.ofText marker text)) := by
  obtain ⟨p, hp⟩ := Progress.reads_of_startsDirect g view unit directories h
  exact hp.grounded

/-- A transcript that starts directly is merged: the translation unit is put into the graph, then the
links of its trails are made. -/
theorem graph_merge_of_startsDirect (h : StartsDirect (TraceLine.ofText marker text)) :
    (g.merge view unit directories marker text).graph =
      (g.ensure view.cwd unit).linkAll view.cwd
        ((Setting.ofUnit view unit directories).links [] (TraceLine.ofText marker text)) := by
  obtain ⟨p, hp⟩ := Progress.reads_of_startsDirect g view unit directories h
  have hrun := hp.run
  rw [TraceLine.ofText] at hrun
  simp only [merge, hrun]
  exact hp.graph_eq

/-- What the merge of a transcript that starts directly counts. -/
theorem verdict_merge_of_startsDirect (h : StartsDirect (TraceLine.ofText marker text)) :
    (g.merge view unit directories marker text).verdict =
      .ok ⟨text.lines.length, (TraceLine.ofText marker text).length,
        (TraceLine.ofText marker text).length,
        ((TraceLine.ofText marker text).map TraceLine.depth).foldr max 0⟩ := by
  obtain ⟨p, hp⟩ := Progress.reads_of_startsDirect g view unit directories h
  have hrun := hp.run
  have hread := hp.read_eq
  have hedges := hp.edges_eq
  have hdeepest := hp.deepest_eq
  rw [TraceLine.ofText] at hrun
  simp only [Progress.start, Nat.zero_add, Nat.zero_max] at hread hedges hdeepest
  simp only [merge, hrun, hread, hedges, hdeepest]

/-- A transcript that starts with a nested line is not merged: the translation unit is put into the
graph, and the line is reported with the spelling under which the unit is shown. -/
theorem merge_of_nested (g : Graph) (view : FileView) (unit : Text) (directories : List Text)
    {first : TraceLine} {rest : List TraceLine} (hlines : TraceLine.ofText marker text = first :: rest)
    (hd : 0 < first.depth) :
    (g.merge view unit directories marker text).graph = g.ensure view.cwd unit ∧
      (g.merge view unit directories marker text).verdict =
        .error ⟨first.depth, (g.ensure view.cwd unit).pathOf (Path.key view.cwd unit)⟩ := by
  have hrun := Progress.addAll_of_nested
    (Progress.follows_start g view unit directories) hd rest
  rw [TraceLine.ofText] at hlines
  simp only [merge, hlines, hrun]
  exact ⟨rfl, rfl⟩

end IncludeTrace.Graph
