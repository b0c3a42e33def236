import IncludeTrace.Graph.Multigraph
import IncludeTrace.Graph.Tree
import IncludeTrace.Proofs.Session.Steps
import IncludeTrace.Session.Script

/-!
# The history of a graph

A graph comes about by operations: files are created, items are connected, transcripts are merged to
their end or broken off on the way, sessions carry out requests, and questions are asked. All of them
are made of two: putting a file in, and connecting an item to one that is there. `Graph.Grows` says
that one graph comes from another by these two alone, and which files were named on the way, in order.

From this everything follows by induction. Items never move and include lists only get longer
(`Grows.extends`); keys stay distinct and nothing is included that is not there
(`Grows.wellFormed`); and a new item belongs to the first spelling that was named with its key
(`Grows.spelling_of_new`). `Graph.reached_only_extends` puts this together for every graph that
operations can reach.
-/

namespace IncludeTrace

/-- An item **extends** another one if it is the same file with more includes behind the others. -/
structure Item.Extends (i i' : Item) : Prop where
  key_eq : i'.key = i.key
  path_eq : i'.path = i.path
  includes_prefix : i.includes <+: i'.includes

namespace Graph

variable {g g' g'' : Graph} {cwd path parent child key : Text} {named : List Text}

/-! ### Extending a graph -/

/-- A graph **extends** another one if every item of this stands at its old place, extended. So what is
new comes behind all of them. -/
def Extends (g g' : Graph) : Prop :=
  ∀ (n : ℕ) (i : Item), g.items[n]? = some i → ∃ i' : Item, g'.items[n]? = some i' ∧ i.Extends i'

theorem Extends.refl (g : Graph) : g.Extends g := fun _ i h => ⟨i, h, rfl, rfl, List.prefix_rfl⟩

theorem Extends.trans (h : g.Extends g') (h' : g'.Extends g'') : g.Extends g'' := by
  intro n i hi
  obtain ⟨i', hi', hext⟩ := h n i hi
  obtain ⟨i'', hi'', hext'⟩ := h' n i' hi'
  exact ⟨i'', hi'', hext'.key_eq.trans hext.key_eq, hext'.path_eq.trans hext.path_eq,
    hext.includes_prefix.trans hext'.includes_prefix⟩

theorem extends_ensure (g : Graph) (cwd path : Text) : g.Extends (g.ensure cwd path) := by
  rw [ensure]
  split
  · exact .refl g
  · intro n i hi
    refine ⟨i, ?_, rfl, rfl, List.prefix_rfl⟩
    rw [List.getElem?_append_left (List.getElem?_eq_some_iff.mp hi).1, hi]

theorem extends_addInclude (g : Graph) (parent child : Text) :
    g.Extends (g.addInclude parent child) := by
  intro n i hi
  refine ⟨_, by rw [addInclude, List.getElem?_map, hi, Option.map_some], ?_⟩
  split
  · exact ⟨rfl, rfl, List.prefix_append _ _⟩
  · exact ⟨rfl, rfl, List.prefix_rfl⟩

/-- What was stored under a key is there in an extension too, extended. -/
theorem Extends.find? (h : g.Extends g') (hn : g'.keys.Nodup) {i : Item}
    (hi : g.find? key = some i) : ∃ i', g'.find? key = some i' ∧ i.Extends i' := by
  obtain ⟨n, hn'⟩ := List.mem_iff_getElem?.mp (List.mem_of_find?_eq_some hi)
  obtain ⟨i', hi', hext⟩ := h n i hn'
  have hfind := find?_key_of_mem hn (List.mem_iff_getElem?.mpr ⟨n, hi'⟩)
  rw [hext.key_eq, key_of_find? hi] at hfind
  exact ⟨i', hfind, hext⟩

/-! ### Well-formed graphs -/

/-- A graph is **well-formed** if its keys are distinct and it has every file that is included. -/
structure WellFormed (g : Graph) : Prop where
  nodup : g.keys.Nodup
  closed : ∀ i ∈ g.items, ∀ key ∈ i.includes, g.has key

theorem wellFormed_empty : empty.WellFormed :=
  ⟨List.nodup_nil, fun _ hi => absurd hi List.not_mem_nil⟩

/-- A well-formed graph has what any of its files includes. -/
theorem has_of_mem_includesOf (hg : g.WellFormed) (h : child ∈ g.includesOf key) : g.has child := by
  rw [includesOf] at h
  split at h
  · next i hfind => exact hg.closed i (List.mem_of_find?_eq_some hfind) child h
  · cases h

theorem wellFormed_ensure (h : g.WellFormed) : (g.ensure cwd path).WellFormed := by
  refine ⟨nodup_keys_ensure h.nodup, fun i hi key hkey => has_ensure.mpr (.inl ?_)⟩
  rw [ensure] at hi
  split at hi
  · exact h.closed i hi key hkey
  · rcases List.mem_append.mp hi with hi | hi
    · exact h.closed i hi key hkey
    · obtain rfl := List.mem_singleton.mp hi
      exact absurd hkey List.not_mem_nil

theorem wellFormed_addInclude (h : g.WellFormed) (hchild : g.has child) :
    (g.addInclude parent child).WellFormed := by
  refine ⟨by rw [keys_addInclude]; exact h.nodup, fun i hi key hkey => has_addInclude.mpr ?_⟩
  obtain ⟨j, hj, rfl⟩ := List.mem_map.mp hi
  split at hkey
  · rcases List.mem_append.mp hkey with hkey | hkey
    · exact h.closed j hj key hkey
    · exact List.mem_singleton.mp hkey ▸ hchild
  · exact h.closed j hj key hkey

/-! ### Growth -/

/-- One graph **grows** into another, in the current directory `cwd`, if it does so by putting files in
and connecting items to those that are there; `named` are the files that were put in, or would have
been if they had not been there, in order. -/
inductive Grows (cwd : Text) (g : Graph) : List Text → Graph → Prop
  | refl : Grows cwd g [] g
  | ensure {named : List Text} {g' : Graph} (path : Text) :
      Grows cwd g named g' → Grows cwd g (named ++ [path]) (g'.ensure cwd path)
  | addInclude {named : List Text} {g' : Graph} (parent child : Text) :
      Grows cwd g named g' → g'.has child → Grows cwd g named (g'.addInclude parent child)

theorem Grows.extends (h : g.Grows cwd named g') : g.Extends g' := by
  induction h with
  | refl => exact .refl g
  | ensure path _ ih => exact ih.trans (extends_ensure _ cwd path)
  | addInclude parent child _ _ ih => exact ih.trans (extends_addInclude _ parent child)

theorem Grows.wellFormed (h : g.Grows cwd named g') (hg : g.WellFormed) : g'.WellFormed := by
  induction h with
  | refl => exact hg
  | ensure path _ ih => exact wellFormed_ensure ih
  | addInclude parent child _ hchild ih => exact wellFormed_addInclude ih hchild

/-- Every file that was named is there in the end. -/
theorem Grows.has_of_mem (h : g.Grows cwd named g') (hpath : path ∈ named) :
    g'.has (Path.key cwd path) := by
  induction h with
  | refl => cases hpath
  | ensure p _ ih =>
    rw [has_ensure]
    rcases List.mem_append.mp hpath with hpath | hpath
    · exact .inl (ih hpath)
    · exact .inr (congrArg _ (List.mem_singleton.mp hpath).symm)
  | addInclude parent child _ _ ih => exact has_addInclude.mpr (ih hpath)

/-- What `ensure` stores under a key that was free. -/
theorem find?_ensure_of_not_has (h : ¬ g.has (Path.key cwd path)) :
    (g.ensure cwd path).find? (Path.key cwd path) =
      some ⟨Path.key cwd path, Path.shown cwd path, []⟩ := by
  have hnone : g.find? (Path.key cwd path) = none := by simpa [has] using h
  rw [find?] at hnone
  simp [ensure, h, find?, hnone]

/-- A new item belongs to the first spelling with its key, and shows it. -/
theorem Grows.spelling_of_new (h : g.Grows cwd named g') (hnew : ¬ g.has key) {i : Item}
    (hi : g'.find? key = some i) :
    ∃ spelling, named.find? (fun p => Path.key cwd p = key) = some spelling ∧
      i.path = Path.shown cwd spelling := by
  induction h generalizing i with
  | refl => simp [has, hi] at hnew
  | @ensure named g' path hgrows ih =>
    rw [List.find?_append]
    by_cases hhas : g'.has key
    · rw [find?_ensure_of_has hhas] at hi
      obtain ⟨spelling, hspelling, hpath⟩ := ih hi
      exact ⟨spelling, by rw [hspelling]; rfl, hpath⟩
    · -- nothing that was named before has the key, or it would be there
      have hnamed : named.find? (fun p => Path.key cwd p = key) = none := by
        refine List.find?_eq_none.mpr fun p hp hkey => hhas ?_
        rw [← of_decide_eq_true hkey]
        exact hgrows.has_of_mem hp
      have hthere : (g'.ensure cwd path).has key := by rw [has, hi]; rfl
      obtain rfl : Path.key cwd path = key := (has_ensure.mp hthere).resolve_left hhas
      rw [find?_ensure_of_not_has hhas] at hi
      obtain rfl := Option.some.inj hi
      exact ⟨path, by simp [hnamed], rfl⟩
  | addInclude parent child _ _ ih =>
    rw [find?_addInclude, Option.map_eq_some_iff] at hi
    obtain ⟨j, hj, rfl⟩ := hi
    obtain ⟨spelling, hspelling, hpath⟩ := ih hj
    refine ⟨spelling, hspelling, ?_⟩
    split <;> exact hpath

theorem Grows.trans {named' : List Text} (h : g.Grows cwd named g')
    (h' : g'.Grows cwd named' g'') : g.Grows cwd (named ++ named') g'' := by
  induction h' with
  | refl => rwa [List.append_nil]
  | ensure path _ ih =>
    rw [← List.append_assoc]
    exact ih.ensure path
  | addInclude parent child _ hchild ih => exact ih.addInclude parent child hchild

/-- Making links is growth: a child is put in before it is connected. -/
theorem grows_linkAll (cwd : Text) (g : Graph) (links : List Link) :
    g.Grows cwd (links.map Link.path) (g.linkAll cwd links) := by
  induction links generalizing g with
  | nil => exact .refl
  | cons l rest ih =>
    have hlink : g.Grows cwd [l.path] (g.link cwd l) :=
      (Grows.refl.ensure l.path).addInclude l.parent (l.child cwd) (has_ensure.mpr (.inr rfl))
    exact hlink.trans (ih _)

end Graph

/-! ### Transcripts as growth -/

theorem Merge.StartsDirect.take {lines : List TraceLine} (h : Merge.StartsDirect lines) (n : ℕ) :
    Merge.StartsDirect (lines.take n) := by
  intro line hline
  rw [List.head?_take] at hline
  split at hline
  · cases hline
  · exact h line hline

theorem Merge.Setting.links_take (s : Merge.Setting) (trail : List Text) (lines : List TraceLine)
    (n : ℕ) : s.links trail (lines.take n) = (s.links trail lines).take n := by
  induction lines generalizing trail n with
  | nil => simp [Setting.links]
  | cons line rest ih =>
    cases n with
    | zero => rfl
    | succ n => rw [List.take_succ_cons, Setting.links, ih, Setting.links, List.take_succ_cons]

/-- The files that a transcript names, in order: the translation unit, then what its trace lines stand
for. -/
def Transcript.named (view : FileView) (t : Transcript) : List Text :=
  t.unit :: (t.links view).map Link.path

namespace Graph

open Merge

variable {g : Graph} {view : FileView} {t : Transcript}

/-- The graph in which a merge stands when it is broken off behind the first `n` trace lines of its
transcript. -/
def mergeFirst (view : FileView) (t : Transcript) (n : ℕ) (g : Graph) : Graph :=
  ((Progress.start g view.cwd t.unit).addAll (.ofUnit view t.unit t.directories)
    (t.lines.take n)).1.graph

/-- A merge that is broken off has made the first links of its transcript. -/
theorem mergeFirst_eq_linkAll (g : Graph) (view : FileView) (t : Transcript) (n : ℕ) :
    g.mergeFirst view t n =
      (g.ensure view.cwd t.unit).linkAll view.cwd ((t.links view).take n) := by
  by_cases hd : StartsDirect t.lines
  · obtain ⟨p, hp⟩ := Progress.reads_of_startsDirect g view t.unit t.directories (hd.take n)
    rw [mergeFirst, hp.run, Transcript.links, if_pos hd, ← Setting.links_take]
    exact hp.graph_eq
  · rw [Transcript.links, if_neg hd, List.take_nil, linkAll_nil, mergeFirst]
    obtain ⟨first, rest, hlines, hpos⟩ := not_startsDirect_iff.mp hd
    cases n with
    | zero => rfl
    | succ n =>
      rw [hlines, List.take_succ_cons, Progress.addAll_of_nested
        (Progress.follows_start g view t.unit t.directories) hpos]
      rfl

theorem grows_mergeFirst (g : Graph) (view : FileView) (t : Transcript) (n : ℕ) :
    g.Grows view.cwd ((t.named view).take (n + 1)) (g.mergeFirst view t n) := by
  rw [mergeFirst_eq_linkAll, Transcript.named, List.take_succ_cons, ← List.map_take]
  exact (Grows.refl.ensure t.unit).trans (grows_linkAll _ _ _)

theorem grows_merge (g : Graph) (view : FileView) (t : Transcript) :
    g.Grows view.cwd (t.named view)
      (g.merge view t.unit t.directories t.marker t.text).graph := by
  rw [merge_eq_linkAll]
  exact (Grows.refl.ensure t.unit).trans (grows_linkAll _ _ _)

theorem grows_extendAll (g : Graph) (view : FileView) (ts : List Transcript) :
    g.Grows view.cwd (ts.flatMap (Transcript.named view)) (g.extendAll view ts).1 := by
  induction ts generalizing g with
  | nil => exact .refl
  | cons t rest ih =>
    rw [extendAll_cons, List.flatMap_cons]
    exact (grows_merge g view t).trans (ih _)

end Graph

/-! ### Operations -/

/-- A question about a graph. -/
inductive Question
  | item (path : Text)
  | contains (path : Text)
  | tree (path : Text) (limit : Int) (indent : Text)
  | arcs

/-- What a question is answered with. -/
inductive Finding
  | item (i : Option Item)
  | contains (there : Bool)
  | tree (lines : Option (List Text))
  | arcs (arcs : List Arc)

/-- Answers a question about a graph. -/
def Graph.ask (cwd : Text) (g : Graph) : Question → Finding
  | .item path => .item (g.item? cwd path)
  | .contains path => .contains (g.has (Path.key cwd path))
  | .tree path limit indent => .tree ((g.item? cwd path).map (g.treeLines limit indent))
  | .arcs => .arcs g.arcs

/-- An **operation** on a graph. Each has its own view of the disk, because files may come and go and
the current directory may change between operations. A session that shares the graph may be in any
state when it gets a request. -/
inductive Operation : Type 1
  | create (view : FileView) (path : Text)
  | connect (parent child : Text)
  | merge (view : FileView) (t : Transcript)
  | breakOff (view : FileView) (t : Transcript) (n : ℕ)
  | extend (view : FileView) (t : Transcript)
  | request {σ : Type} (setup : Setup σ) (outside : σ) (held : Option Held) (r : Request)
  | ask (view : FileView) (q : Question)

namespace Operation

/-- Carries out an operation: the graph after it, and what a question is answered with. -/
def run : Operation → Graph → Graph × Option Finding
  | create view path, g => (g.ensure view.cwd path, none)
  | connect parent child, g => (g.addInclude parent child, none)
  | merge view t, g => ((g.merge view t.unit t.directories t.marker t.text).graph, none)
  | breakOff view t n, g => (g.mergeFirst view t n, none)
  | extend view t, g => ((g.extend view t.unit t.directories t.marker t.text).1, none)
  | request setup outside held r, g =>
    ((Session.perform setup ⟨g, outside, held⟩ r).graph, none)
  | ask view q, g => (g, some (g.ask view.cwd q))

/-- Only items that are there can be connected. -/
def Allowed (g : Graph) : Operation → Prop
  | connect parent child => g.has parent ∧ g.has child
  | _ => True

/-- The current directory of an operation. -/
def cwd : Operation → Text
  | create view _ | merge view _ | breakOff view _ _ | extend view _ | ask view _ => view.cwd
  | connect _ _ => []
  | request setup _ _ _ => setup.view.cwd

/-- The files that an operation puts into the graph unless they are there, in order. -/
def named (g : Graph) : Operation → List Text
  | create _ path => [path]
  | connect _ _ | ask _ _ => []
  | merge view t | extend view t => t.named view
  | breakOff view t n => (t.named view).take (n + 1)
  | request setup outside held r =>
    (Session.transcripts setup ⟨g, outside, held⟩ r).flatMap (Transcript.named setup.view)

/-- **Step.** Every operation makes a graph grow by the files that it names. -/
theorem grows_run {g : Graph} (op : Operation) (h : op.Allowed g) :
    g.Grows op.cwd (op.named g) (op.run g).1 := by
  cases op with
  | create view path => exact Graph.Grows.refl.ensure path
  | connect parent child => exact Graph.Grows.refl.addInclude parent child h.2
  | merge view t => exact Graph.grows_merge g view t
  | breakOff view t n => exact Graph.grows_mergeFirst g view t n
  | extend view t =>
    rw [run, Graph.extend_eq_merge.1]
    exact Graph.grows_merge g view t
  | request setup outside held r =>
    rw [run, Session.graph_perform]
    exact Graph.grows_extendAll g setup.view _
  | ask view q => exact .refl

end Operation

/-! ### Histories -/

namespace Graph

/-- A graph is **reached** by operations if they lead to it from the empty graph. -/
inductive Reached : List Operation → Graph → Prop
  | nil : Reached [] empty
  | snoc {ops : List Operation} {g : Graph} (op : Operation) :
      Reached ops g → op.Allowed g → Reached (ops ++ [op]) (op.run g).1

end Graph

/-- An item was **created** in a history by the first spelling with its key: some operation came upon a
graph that did not have the key, and this spelling is the first one with the key that it named. The
item has the key of the spelling and shows it. -/
def Item.CreatedIn (ops : List Operation) (i : Item) : Prop :=
  ∃ before op after g spelling, ops = before ++ op :: after ∧ Graph.Reached before g ∧
    ¬ g.has i.key ∧ (op.named g).find? (fun p => Path.key op.cwd p = i.key) = some spelling ∧
    i.key = Path.key op.cwd spelling ∧ i.path = Path.shown op.cwd spelling

/-- An item that was created stays so, whatever it includes later. -/
theorem Item.CreatedIn.snoc {ops : List Operation} {i i' : Item} (h : i.CreatedIn ops)
    (hext : i.Extends i') (op : Operation) : i'.CreatedIn (ops ++ [op]) := by
  obtain ⟨before, op', after, g, spelling, rfl, hreached, hnew, hfirst, hkey, hpath⟩ := h
  refine ⟨before, op', after ++ [op], g, spelling, by simp, hreached, ?_, ?_, ?_, ?_⟩
  · rwa [hext.key_eq]
  · rwa [hext.key_eq]
  · rw [hext.key_eq, hkey]
  · rw [hext.path_eq, hpath]

namespace Graph

variable {ops : List Operation} {g : Graph}

/-- **Run.** Every reached graph is well-formed. -/
theorem Reached.wellFormed (h : Reached ops g) : g.WellFormed := by
  induction h with
  | nil => exact wellFormed_empty
  | snoc op _ hallowed ih => exact (op.grows_run hallowed).wellFormed ih

/-- **Run.** Everything that is stored in a reached graph was created on the way. -/
theorem Reached.createdIn (h : Reached ops g) {key : Text} {i : Item}
    (hi : g.find? key = some i) : i.CreatedIn ops := by
  induction h generalizing i with
  | nil => cases hi
  | @snoc ops g op hreached hallowed ih =>
    have hgrows := op.grows_run hallowed
    obtain rfl : i.key = key := key_of_find? hi
    by_cases hhas : g.has i.key
    · -- it was there before
      obtain ⟨j, hj⟩ := Option.isSome_iff_exists.mp hhas
      obtain ⟨i', hi', hext⟩ := hgrows.extends.find? (hgrows.wellFormed hreached.wellFormed).nodup hj
      obtain rfl : i = i' := Option.some.inj (hi.symm.trans hi')
      exact (ih hj).snoc hext op
    · obtain ⟨spelling, hspelling, hpath⟩ := hgrows.spelling_of_new hhas hi
      have hkey : Path.key op.cwd spelling = i.key := by simpa using List.find?_some hspelling
      exact ⟨ops, op, [], g, spelling, rfl, hreached, hhas, hspelling, hkey.symm, hpath⟩

/-- **Operations only extend a graph.**

In every graph that operations reach from the empty one, the keys are distinct; every item is stored
under its own key, which is the key of the spelling that created it; and every included key has an item
in the graph. Every further operation leaves all items at their places with their keys and paths, puts
new ones behind them, and only lengthens include lists at their ends. Questions change nothing. -/
theorem reached_only_extends (ops : List Operation) (g : Graph) (h : Reached ops g) :
    g.keys.Nodup ∧
      (∀ i ∈ g.items, g.find? i.key = some i ∧ i.CreatedIn ops) ∧
      (∀ key i, g.find? key = some i → i ∈ g.items ∧ i.key = key) ∧
      (∀ i ∈ g.items, ∀ key ∈ i.includes, ∃ j ∈ g.items, g.find? key = some j) ∧
      (∀ op : Operation, op.Allowed g → g.Extends (op.run g).1) ∧
      ∀ view q, ((Operation.ask view q).run g).1 = g := by
  have hwell := h.wellFormed
  refine ⟨hwell.nodup, fun i hi => ?_, fun key i hi => ?_, fun i hi key hkey => ?_,
    fun op hallowed => (op.grows_run hallowed).extends, fun view q => rfl⟩
  · have hfind := find?_key_of_mem hwell.nodup hi
    exact ⟨hfind, h.createdIn hfind⟩
  · exact ⟨List.mem_of_find?_eq_some hi, key_of_find? hi⟩
  · obtain ⟨j, hj⟩ := Option.isSome_iff_exists.mp (hwell.closed i hi key hkey)
    exact ⟨j, List.mem_of_find?_eq_some hj, hj⟩

/-- A merge that is broken off, one that fails, a connection and a session's trace: the item of `A`
keeps its place and spelling, and the include that the first merge gave it. -/
theorem reached_only_extends_mixed :
    let view : FileView := ⟨['/'], fun _ => false⟩
    let script : Script := ⟨[(['c'], ">H\n> B".toList)], [], [], [], [], []⟩
    let ops : List Operation := [.create view ['A'],
      .breakOff view ⟨['a'], [], ['>'], ">h\n> x\n>y".toList⟩ 2,
      .merge view ⟨['b'], [], ['>'], ">  h".toList⟩, .connect ['/', 'b'] ['/', 'a'],
      .request ⟨Script.collaborators, view, ['>']⟩ script none (.trace ['c'])]
    ∃ g, Reached ops g ∧ g.keys.Nodup ∧
      g.keys = [['/', 'a'], ['/', 'h'], ['/', 'x'], ['/', 'b'], ['/', 'c']] ∧
      ∃ i, g.find? ['/', 'a'] = some i ∧ i.path = ['/', 'A'] ∧ i.includes = [['/', 'h']] ∧
        i.CreatedIn ops := by
  intro view script ops
  have hreached := ((((Reached.nil.snoc (.create view ['A']) trivial).snoc
    (.breakOff view ⟨['a'], [], ['>'], ">h\n> x\n>y".toList⟩ 2) trivial).snoc
    (.merge view ⟨['b'], [], ['>'], ">  h".toList⟩) trivial).snoc
    (.connect ['/', 'b'] ['/', 'a']) ⟨by decide +kernel, by decide +kernel⟩).snoc
    (.request ⟨Script.collaborators, view, ['>']⟩ script none (.trace ['c'])) trivial
  obtain ⟨hnodup, hstored, -⟩ := reached_only_extends ops _ hreached
  refine ⟨_, hreached, hnodup, by decide +kernel, ⟨['/', 'a'], ['/', 'A'], [['/', 'h']]⟩,
    by decide +kernel, rfl, rfl, ?_⟩
  exact (hstored _ (by decide +kernel)).2

end Graph

end IncludeTrace
