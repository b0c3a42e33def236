import IncludeTrace.Graph.Tree
import IncludeTrace.Proofs.Graph.Growth

/-!
# Forests of files

Where no file is included twice, the files below another one form an ordered **forest**, and a graph
holds nothing else. This module follows a forest through a graph in both directions. Making its links
one after another, depth first, puts exactly its items into the graph (`Forest.linkAll_links`).
Drawing a graph whose items that were not met yet begin with those of the forest draws the forest,
every file on a line of its own and none marked as a repetition (`Forest.draw_eq`).
-/

namespace IncludeTrace

/-- An ordered **forest** of files: nothing, or a first tree, which is the path of its root and the
forest `below` it, and the forest `beside` this tree. -/
inductive Forest
  | nil
  | cons (path : Text) (below beside : Forest)
  deriving DecidableEq

namespace Forest

/-- The paths of the roots. -/
def roots : Forest → List Text
  | nil => []
  | cons path _ beside => path :: beside.roots

/-- Every file with the forest below it, depth first. -/
def nodes : Forest → List (Text × Forest)
  | nil => []
  | cons path below beside => (path, below) :: (below.nodes ++ beside.nodes)

/-- The paths of all files, depth first. -/
def paths (f : Forest) : List Text := f.nodes.map Prod.fst

/-- The item of a file: it includes the roots of the forest below it. -/
def item (cwd : Text) (node : Text × Forest) : Item :=
  ⟨Path.key cwd node.1, node.1, node.2.roots.map (Path.key cwd)⟩

/-- The items of all files, depth first. -/
def items (cwd : Text) (f : Forest) : List Item := f.nodes.map (item cwd)

/-- The links that make the forest below a parent, depth first. -/
def links (cwd parent : Text) : Forest → List Link
  | nil => []
  | cons path below beside =>
    ⟨parent, path⟩ :: (below.links cwd (Path.key cwd path) ++ beside.links cwd parent)

/-- The forest as it is drawn when its roots stand at `depth`. -/
def drawn (indent : Text) (depth : ℕ) : Forest → List Text
  | nil => []
  | cons path below beside =>
    (Text.times depth indent ++ path) :: (below.drawn indent (depth + 1) ++ beside.drawn indent depth)

variable {cwd parent path key : Text} {below beside : Forest}

@[simp]
theorem paths_nil : nil.paths = [] := rfl

@[simp]
theorem paths_cons : (cons path below beside).paths = path :: (below.paths ++ beside.paths) := by
  simp [paths, nodes]

@[simp]
theorem items_nil : nil.items cwd = [] := rfl

@[simp]
theorem items_cons : (cons path below beside).items cwd =
    item cwd (path, below) :: (below.items cwd ++ beside.items cwd) := by
  simp [items, nodes]

theorem keys_items (f : Forest) : (f.items cwd).map Item.key = f.paths.map (Path.key cwd) := by
  rw [items, paths, List.map_map, List.map_map]
  rfl

/-! ### Making the links of a forest -/

/-- The item with more includes, if its key is `parent`. -/
def including (parent : Text) (children : List Text) (i : Item) : Item :=
  if i.key = parent then { i with includes := i.includes ++ children } else i

/-- Several items with more includes have the keys that they had. -/
theorem keys_map_including (children : List Text) (items : List Item) :
    (items.map (including parent children)).map Item.key = items.map Item.key :=
  Graph.keys_map_at (fun i => { i with includes := i.includes ++ children }) (fun _ => rfl) items

theorem map_including_nil (items : List Item) : items.map (including parent []) = items := by
  refine List.map_id'' (fun i => ?_) items
  rw [including]
  split <;> simp

theorem map_including_including (before after : List Text) (items : List Item) :
    (items.map (including parent before)).map (including parent after) =
      items.map (including parent (before ++ after)) := by
  rw [List.map_map]
  refine List.map_congr_left fun i _ => ?_
  by_cases h : i.key = parent <;> simp [including, h]

theorem map_including_of_not_mem (children : List Text) {items : List Item}
    (h : parent ∉ items.map Item.key) : items.map (including parent children) = items :=
  Graph.map_at_of_not_mem _ h

/-- Linking a new file puts its item behind the others. -/
theorem link_of_new {items : List Item} (hparent : parent ∈ items.map Item.key)
    (hnew : Path.key cwd path ∉ items.map Item.key) (habs : Path.isAbsolute path) :
    (⟨items⟩ : Graph).link cwd ⟨parent, path⟩ =
      ⟨items.map (including parent [Path.key cwd path]) ++ [⟨Path.key cwd path, path, []⟩]⟩ := by
  have hhas : ¬ (⟨items⟩ : Graph).has (Path.key cwd path) := mt Graph.has_iff_mem_keys.mp hnew
  have hensure : (⟨items⟩ : Graph).ensure cwd path =
      ⟨items ++ [⟨Path.key cwd path, path, []⟩]⟩ := by
    rw [Graph.ensure, if_neg hhas, Path.shown, if_pos habs]
  have hself : [(⟨Path.key cwd path, path, []⟩ : Item)].map (including parent [Path.key cwd path]) =
      [⟨Path.key cwd path, path, []⟩] := by
    refine map_including_of_not_mem _ fun hmem => hnew ?_
    obtain rfl : parent = Path.key cwd path := List.mem_singleton.mp hmem
    exact hparent
  rw [Graph.link, hensure, Link.child, ← hself, ← List.map_append, hself]
  rfl

/-- **Making a forest.** If the keys of the forest are distinct and new, its links put its items behind
the others, and the parent includes its roots. -/
theorem linkAll_links (f : Forest) {items : List Item} (hparent : parent ∈ items.map Item.key)
    (hnodup : (items.map Item.key ++ f.paths.map (Path.key cwd)).Nodup)
    (habs : ∀ path ∈ f.paths, Path.isAbsolute path) :
    (⟨items⟩ : Graph).linkAll cwd (f.links cwd parent) =
      ⟨items.map (including parent (f.roots.map (Path.key cwd))) ++ f.items cwd⟩ := by
  induction f generalizing parent items with
  | nil => rw [links, roots, List.map_nil, map_including_nil, items_nil, List.append_nil]; rfl
  | cons path below beside ihbelow ihbeside =>
    rw [paths_cons, List.map_cons, List.map_append] at hnodup
    have hdisjoint := List.disjoint_of_nodup_append hnodup
    have hnew : Path.key cwd path ∉ items.map Item.key := fun h => hdisjoint h List.mem_cons_self
    -- the items when the first root has been linked, and those of its tree
    let first := items.map (including parent [Path.key cwd path])
    let tree := item cwd (path, below) :: below.items cwd
    have hfirst : first.map Item.key = items.map Item.key := keys_map_including _ items
    have htree : tree.map Item.key = Path.key cwd path :: below.paths.map (Path.key cwd) := by
      rw [List.map_cons, keys_items]
      rfl
    have hlink : (⟨items⟩ : Graph).link cwd ⟨parent, path⟩ =
        ⟨first ++ [⟨Path.key cwd path, path, []⟩]⟩ :=
      link_of_new hparent hnew (habs path (by simp))
    have hbelow : (⟨first ++ [⟨Path.key cwd path, path, []⟩]⟩ : Graph).linkAll cwd
        (below.links cwd (Path.key cwd path)) = ⟨first ++ tree⟩ := by
      have hnodup' : ((first ++ [(⟨Path.key cwd path, path, []⟩ : Item)]).map Item.key ++
          below.paths.map (Path.key cwd)).Nodup := by
        rw [List.map_append, hfirst, List.append_assoc]
        exact hnodup.sublist (((List.sublist_append_left _ _).cons_cons _).append_left _)
      rw [ihbelow (by simp) hnodup' fun p hp => habs p (by simp [hp]), List.map_append,
        map_including_of_not_mem _ (hfirst ▸ hnew)]
      simp [including, item, tree]
    -- the parent is none of these, so the links beside the tree leave them as they are
    have hbeside : (⟨first ++ tree⟩ : Graph).linkAll cwd (beside.links cwd parent) =
        ⟨first.map (including parent (beside.roots.map (Path.key cwd))) ++ tree ++
          beside.items cwd⟩ := by
      have hparent' : parent ∈ (first ++ tree).map Item.key := by
        rw [List.map_append, hfirst]
        exact List.mem_append_left _ hparent
      have hnodup' : ((first ++ tree).map Item.key ++ beside.paths.map (Path.key cwd)).Nodup := by
        rw [List.map_append, hfirst, htree, List.append_assoc]
        exact hnodup
      have hother : parent ∉ tree.map Item.key := by
        rw [htree]
        exact fun h => hdisjoint hparent (List.mem_append_left _ h)
      rw [ihbeside hparent' hnodup' fun p hp => habs p (by simp [hp]), List.map_append,
        map_including_of_not_mem _ hother]
    rw [links, Graph.linkAll_cons, hlink, Graph.linkAll_append, hbelow, hbeside,
      map_including_including, roots, List.map_cons, items_cons, List.append_assoc]
    rfl

/-! ### Drawing a forest -/

open Drawing

theorem draw_done (g : Graph) (limit : Int) (indent : Text) (fresh : List Item) (depth : ℕ)
    (frames : List Frame) :
    draw g limit indent fresh (⟨depth, []⟩ :: frames) = draw g limit indent fresh frames := by
  rw [draw]

/-- A file that was not met yet is drawn without the mark, and opened if the limit allows it. -/
theorem draw_of_take? {g : Graph} {limit : Int} {indent child : Text} {fresh fresh' : List Item}
    {found : Item} {depth : ℕ} {rest : List Text} {frames : List Frame}
    (h : take? child fresh = some (found, fresh')) :
    draw g limit indent fresh (⟨depth, child :: rest⟩ :: frames) =
      (Text.times depth indent ++ found.path) :: draw g limit indent fresh'
        (if opens limit depth then ⟨depth + 1, found.includes⟩ :: ⟨depth, rest⟩ :: frames
          else ⟨depth, rest⟩ :: frames) := by
  rw [draw]
  split
  · next hnone =>
    rw [h] at hnone
    cases hnone
  · next found' fresh'' hsome =>
    rw [h] at hsome
    cases hsome
    rfl

/-- **Drawing a forest** whose items come first among those that were not met yet. -/
theorem draw_eq (cwd : Text) (f : Forest) (g : Graph) (indent : Text) (depth : ℕ) (fresh : List Item)
    (frames : List Frame) :
    draw g 0 indent (f.items cwd ++ fresh) (⟨depth, f.roots.map (Path.key cwd)⟩ :: frames) =
      f.drawn indent depth ++ draw g 0 indent fresh frames := by
  induction f generalizing depth fresh frames with
  | nil => rw [items_nil, roots, List.map_nil, List.nil_append, draw_done, drawn, List.nil_append]
  | cons path below beside ihbelow ihbeside =>
    have htake : take? (Path.key cwd path) ((cons path below beside).items cwd ++ fresh) =
        some (item cwd (path, below), below.items cwd ++ (beside.items cwd ++ fresh)) := by
      simp [take?, item]
    have hopen : opens 0 depth = true := by simp [opens]
    rw [roots, List.map_cons, draw_of_take? htake, if_pos hopen]
    simp only [item]
    -- the new frame lies on that of the siblings: first what is below, then what is beside
    rw [ihbelow, ihbeside, drawn, List.cons_append, List.append_assoc]

end Forest

end IncludeTrace
