import IncludeTrace.Graph.Basic
import Mathlib.Data.List.Nodup

/-!
# Growing graphs

Graphs only grow. What the two growing operations `Graph.ensure` and `Graph.addInclude` do is said
here through three views of a graph: which keys it **has**, which keys a key **includes**, and how
many includes there are. `ensure` changes the first view only, `addInclude` the other two only.

A **link** is one include that is still to be made: the key of the parent and the path of the
child. `Graph.linkAll` makes a sequence of links. If every parent is there when its link is made
(`Graph.Grounded`), the include list of a key grows by exactly the children of its own links, in
order (`Graph.includesOf_linkAll`), whatever the graph held before.
-/

namespace IncludeTrace

/-- A **link**: the file with key `parent` is to include the file at `path`. -/
structure Link where
  parent : Text
  path : Text
  deriving DecidableEq

/-- The key of the file that a link leads to. -/
def Link.child (cwd : Text) (l : Link) : Text := Path.key cwd l.path

namespace Graph

variable {g : Graph} {cwd path parent child key : Text}

/-! ### Changing the item with a key -/

/-- Where no item has the key, nothing changes. -/
theorem map_at_of_not_mem (f : Item → Item) {items : List Item}
    (h : key ∉ items.map Item.key) :
    items.map (fun i => if i.key = key then f i else i) = items := by
  refine (List.map_congr_left fun i hi => if_neg ?_).trans (List.map_id' items)
  rintro rfl
  exact h (List.mem_map_of_mem hi)

/-- A change that keeps the key of every item keeps the keys. -/
theorem keys_map_at (f : Item → Item) (hkey : ∀ i, (f i).key = i.key) (items : List Item) :
    (items.map fun i => if i.key = key then f i else i).map Item.key = items.map Item.key := by
  rw [List.map_map]
  refine List.map_congr_left fun i _ => ?_
  rw [Function.comp_apply]
  split
  · exact hkey i
  · rfl

/-! ### Look-ups -/

theorem key_of_find? {i : Item} (h : g.find? key = some i) : i.key = key := by
  simpa using List.find?_some h

/-- Under distinct keys every item is found by its own. -/
theorem find?_key_of_mem (hn : g.keys.Nodup) {i : Item} (hi : i ∈ g.items) :
    g.find? i.key = some i := by
  obtain ⟨items⟩ := g
  simp only [keys, find?] at hn hi ⊢
  induction items with
  | nil => cases hi
  | cons j rest ih =>
    rw [List.map_cons, List.nodup_cons] at hn
    rcases List.mem_cons.mp hi with rfl | hi
    · simp
    · have hne : j.key ≠ i.key := fun e => hn.1 (e ▸ List.mem_map_of_mem hi)
      rw [List.find?_cons_of_neg (by simpa using hne), ih hn.2 hi]

/-- A graph has a key exactly when an item is stored under it. -/
theorem has_iff_mem_keys : g.has key ↔ key ∈ g.keys := by
  simp [has, find?, keys]

/-- What is not there includes nothing. -/
theorem includesOf_of_not_has (h : ¬ g.has key) : g.includesOf key = [] := by
  have hnone : g.find? key = none := by simpa [has] using h
  rw [includesOf, hnone]

/-! ### Ensuring that a file is there -/

theorem find?_ensure_of_has (h : g.has key) : (g.ensure cwd path).find? key = g.find? key := by
  rw [ensure]
  split
  · rfl
  · obtain ⟨i, hi⟩ := Option.isSome_iff_exists.mp h
    rw [find?] at hi
    simp [find?, List.find?_append, hi]

/-- The keys after `ensure`: the key of the path comes last if it is new. -/
theorem keys_ensure : (g.ensure cwd path).keys =
    if g.has (Path.key cwd path) then g.keys else g.keys ++ [Path.key cwd path] := by
  rw [ensure]
  split <;> simp [keys]

@[simp]
theorem has_ensure : (g.ensure cwd path).has key ↔ g.has key ∨ Path.key cwd path = key := by
  simp only [has_iff_mem_keys, keys_ensure]
  split
  · next h => exact ⟨Or.inl, fun h' => h'.elim id fun e => e ▸ h⟩
  · simp [eq_comm]

theorem nodup_keys_ensure (h : g.keys.Nodup) : (g.ensure cwd path).keys.Nodup := by
  rw [keys_ensure]
  split
  · exact h
  · next hk => simpa using h.concat (mt has_iff_mem_keys.mpr hk)

/-- A new item includes nothing, so no include list changes. -/
@[simp]
theorem includesOf_ensure : (g.ensure cwd path).includesOf key = g.includesOf key := by
  by_cases h : g.has key
  · rw [includesOf, find?_ensure_of_has h, includesOf]
  · rw [includesOf_of_not_has h, ensure]
    split
    · exact includesOf_of_not_has h
    · have hnone : g.find? key = none := by simpa [has] using h
      rw [find?] at hnone
      by_cases hk : Path.key cwd path = key <;> simp [includesOf, find?, hnone, hk]

@[simp]
theorem edgeCount_ensure : (g.ensure cwd path).edgeCount = g.edgeCount := by
  rw [ensure]
  split <;> simp [edgeCount]

/-! ### Adding an include -/

theorem find?_addInclude : (g.addInclude parent child).find? key =
    (g.find? key).map fun i =>
      if i.key = parent then { i with includes := i.includes ++ [child] } else i := by
  obtain ⟨items⟩ := g
  have hkey : ∀ i : Item, (if i.key = parent then { i with includes := i.includes ++ [child] }
      else i).key = i.key := fun i => by split <;> rfl
  simp only [find?, addInclude, List.find?_map, Function.comp_def, hkey]

@[simp]
theorem keys_addInclude : (g.addInclude parent child).keys = g.keys :=
  keys_map_at (fun i => { i with includes := i.includes ++ [child] }) (fun _ => rfl) g.items

@[simp]
theorem has_addInclude : (g.addInclude parent child).has key ↔ g.has key := by
  simp [has_iff_mem_keys]

/-- The include list of the parent grows by the child at its end, and no other changes. -/
theorem includesOf_addInclude (h : g.has parent) : (g.addInclude parent child).includesOf key =
    g.includesOf key ++ if parent = key then [child] else [] := by
  cases hi : g.find? key with
  | none =>
    have hne : parent ≠ key := by
      rintro rfl
      simp [has, hi] at h
    simp [includesOf, find?_addInclude, hi, hne]
  | some i =>
    have hik : i.key = key := key_of_find? hi
    by_cases hp : parent = key
    · simp [includesOf, find?_addInclude, hi, hik, hp]
    · simp [includesOf, find?_addInclude, hi, hik, Ne.symm hp, hp]

/-- Without the parent there is nothing to add the child to. -/
theorem addInclude_of_not_has (h : ¬ g.has parent) : g.addInclude parent child = g := by
  rw [has_iff_mem_keys, keys] at h
  rw [addInclude, map_at_of_not_mem _ h]

/-- There is one more include. The keys have to be distinct: each of several items with one key
would get the child. -/
theorem edgeCount_addInclude (hn : g.keys.Nodup) (h : g.has parent) :
    (g.addInclude parent child).edgeCount = g.edgeCount + 1 := by
  obtain ⟨items⟩ := g
  rw [has_iff_mem_keys] at h
  induction items with
  | nil => simp [keys] at h
  | cons i rest ih =>
    have hcount : (Graph.mk (i :: rest)).edgeCount =
        i.includes.length + (Graph.mk rest).edgeCount := rfl
    have hadd : ((Graph.mk (i :: rest)).addInclude parent child).edgeCount =
        (if i.key = parent then { i with includes := i.includes ++ [child] }
          else i).includes.length + ((Graph.mk rest).addInclude parent child).edgeCount := rfl
    rw [keys, List.map_cons, List.nodup_cons] at hn
    rw [keys, List.map_cons, List.mem_cons] at h
    rw [hadd, hcount]
    by_cases hi : i.key = parent
    · -- the parent is found, so no later item has its key
      have hrest : ¬ (Graph.mk rest).has parent :=
        has_iff_mem_keys.not.mpr (hi ▸ hn.1)
      rw [addInclude_of_not_has hrest, if_pos hi, List.length_append, List.length_singleton]
      omega
    · have hmem : parent ∈ rest.map Item.key := h.resolve_left (Ne.symm hi)
      rw [if_neg hi, ih hn.2 hmem]
      omega

/-! ### Making links -/

/-- Makes one link: the child is put into the graph if it is new, then the parent includes it. -/
def link (cwd : Text) (g : Graph) (l : Link) : Graph :=
  (g.ensure cwd l.path).addInclude l.parent (l.child cwd)

/-- Makes links one after another. -/
def linkAll (cwd : Text) (g : Graph) (links : List Link) : Graph := links.foldl (link cwd) g

/-- Links are **grounded** in a graph if the parent of each is there when its turn comes. -/
inductive Grounded (cwd : Text) : Graph → List Link → Prop
  | nil {g : Graph} : Grounded cwd g []
  | cons {g : Graph} {l : Link} {rest : List Link} :
      g.has l.parent → Grounded cwd (g.link cwd l) rest → Grounded cwd g (l :: rest)

variable {l : Link} {links : List Link}

@[simp]
theorem has_link : (g.link cwd l).has key ↔ g.has key ∨ l.child cwd = key := by
  rw [link, has_addInclude, has_ensure, Link.child]

theorem nodup_keys_link (h : g.keys.Nodup) : (g.link cwd l).keys.Nodup := by
  rw [link, keys_addInclude]
  exact nodup_keys_ensure h

theorem includesOf_link (h : g.has l.parent) : (g.link cwd l).includesOf key =
    g.includesOf key ++ if l.parent = key then [l.child cwd] else [] := by
  rw [link, includesOf_addInclude (has_ensure.mpr (.inl h)), includesOf_ensure]

theorem edgeCount_link (hn : g.keys.Nodup) (h : g.has l.parent) :
    (g.link cwd l).edgeCount = g.edgeCount + 1 := by
  rw [link, edgeCount_addInclude (nodup_keys_ensure hn) (has_ensure.mpr (.inl h)),
    edgeCount_ensure]

@[simp]
theorem linkAll_nil : g.linkAll cwd [] = g := rfl

@[simp]
theorem linkAll_cons : g.linkAll cwd (l :: links) = (g.link cwd l).linkAll cwd links := rfl

theorem linkAll_append {links' : List Link} :
    g.linkAll cwd (links ++ links') = (g.linkAll cwd links).linkAll cwd links' :=
  List.foldl_append

/-- The keys after a sequence of links: those from before and the children. -/
theorem has_linkAll :
    (g.linkAll cwd links).has key ↔ g.has key ∨ ∃ l ∈ links, l.child cwd = key := by
  induction links generalizing g with
  | nil => simp
  | cons l rest ih => simp [ih, or_assoc]

theorem nodup_keys_linkAll (h : g.keys.Nodup) : (g.linkAll cwd links).keys.Nodup := by
  induction links generalizing g with
  | nil => exact h
  | cons l rest ih => exact ih (nodup_keys_link h)

/-- What links add to the include list of a key: the children of its own links, in order. -/
theorem includesOf_linkAll (h : Grounded cwd g links) : (g.linkAll cwd links).includesOf key =
    g.includesOf key ++ (links.filter fun l => l.parent = key).map (Link.child cwd) := by
  induction h with
  | nil => simp
  | cons hp _ ih =>
    rw [linkAll_cons, ih, includesOf_link hp, List.append_assoc, List.filter_cons]
    split <;> simp_all

/-- Every link adds one include. -/
theorem edgeCount_linkAll (hn : g.keys.Nodup) (h : Grounded cwd g links) :
    (g.linkAll cwd links).edgeCount = g.edgeCount + links.length := by
  induction h with
  | nil => simp
  | cons hp _ ih =>
    rw [linkAll_cons, ih (nodup_keys_link hn), edgeCount_link hn hp, List.length_cons]
    omega

end Graph

end IncludeTrace
