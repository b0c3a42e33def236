import IncludeTrace.Proofs.Graph.History
import IncludeTrace.Proofs.Path.Spelling

/-!
# Items under the paths they show

An item is stored under the key of the spelling that created it, and shows a path that is made of this
spelling in another way. Where every file was first named by a steady spelling (`Path.Steady`), the two
agree: whoever looks up the path that an item shows finds the item, whatever the current directory is by
then (`Graph.item?_path_of_steady`).

Other spellings part them. A path that begins with a single backslash has the key of a rooted path, but
is shown as a path below the current directory (`Graph.item?_path_rooted_backslash`); and a `..` behind
a directory with a backslash takes back more in the path that is shown than in the key
(`Graph.item?_path_back_over_backslash`).
-/

namespace IncludeTrace.Graph

variable {ops : List Operation} {g : Graph}

/-- A history **names steadily** if every operation in it names its files by spellings that are steady
in its current directory. -/
def NamesSteadily (ops : List Operation) : Prop :=
  ∀ before op after g₀, ops = before ++ op :: after → Reached before g₀ →
    ∀ p ∈ op.named g₀, Path.Steady op.cwd p

/-- **An item is found under the path that it shows**, in every current directory, if the history of the
graph names steadily. -/
theorem item?_path_of_steady (ops : List Operation) (g : Graph) (h : Reached ops g)
    (hsteady : NamesSteadily ops) :
    ∀ i ∈ g.items, ∀ cwd, Path.key cwd i.path = i.key ∧ g.item? cwd i.path = some i := by
  intro i hi cwd
  have hfind := find?_key_of_mem h.wellFormed.nodup hi
  obtain ⟨before, op, after, g₀, spelling, hops, hreached, -, hfirst, hkey, hpath⟩ :=
    h.createdIn hfind
  -- the item shows the spelling by which some operation named it first
  have hnamed : spelling ∈ op.named g₀ := List.mem_of_find?_eq_some hfirst
  have hshown : Path.key cwd i.path = i.key := by
    rw [hpath, hkey]
    exact Path.key_shown (hsteady before op after g₀ hops hreached spelling hnamed) cwd
  refine ⟨hshown, ?_⟩
  rw [item?, hshown]
  exact hfind

/-- A file in a directory that is named with a backslash, and a transcript that leaves the current
directory: the first item is found under what it shows, from another directory. -/
theorem item?_path_of_steady_mixed :
    let view : FileView := ⟨['/', 'w'], fun _ => false⟩
    let ops : List Operation := [.create view "src\\A".toList,
      .merge view ⟨"../B".toList, [], ['>'], ">sub\\h".toList⟩]
    ∃ g, Reached ops g ∧ NamesSteadily ops ∧ ∃ i ∈ g.items, i.key = "/w/src/a".toList ∧
      i.path = "/w/src\\A".toList ∧ g.item? ['/'] i.path = some i := by
  intro view ops
  have hreached := (Reached.nil.snoc (.create view "src\\A".toList) trivial).snoc
    (.merge view ⟨"../B".toList, [], ['>'], ">sub\\h".toList⟩) trivial
  have hsteady : NamesSteadily ops := by
    intro before op after g₀ hops _
    have hop : op ∈ ops := hops ▸ by simp
    rcases List.mem_pair.mp hop with rfl | rfl
    · show ∀ p ∈ ["src\\A".toList], Path.Steady view.cwd p
      decide +kernel
    · show ∀ p ∈ Transcript.named view ⟨"../B".toList, [], ['>'], ">sub\\h".toList⟩,
        Path.Steady view.cwd p
      decide +kernel
  have hfound := item?_path_of_steady ops _ hreached hsteady
  refine ⟨_, hreached, hsteady, ⟨"/w/src/a".toList, "/w/src\\A".toList, []⟩, by decide +kernel, rfl,
    rfl, (hfound _ (by decide +kernel) ['/']).2⟩

/-- **A path that begins with a single backslash** is rooted as far as its key goes, and shown below the
current directory. What is shown leads nowhere. -/
theorem item?_path_rooted_backslash :
    let view : FileView := ⟨"/work".toList, fun _ => false⟩
    ∃ g, Reached [.create view "\\inc\\a.h".toList] g ∧ ∃ i ∈ g.items,
      i.key = "/inc/a.h".toList ∧ i.path = "/work/\\inc\\a.h".toList ∧
        Path.key view.cwd i.path ≠ i.key ∧ g.item? view.cwd i.path = none := by
  intro view
  refine ⟨_, Reached.nil.snoc (.create view "\\inc\\a.h".toList) trivial,
    ⟨"/inc/a.h".toList, "/work/\\inc\\a.h".toList, []⟩, ?_, rfl, rfl, ?_, ?_⟩
  all_goals decide +kernel

/-- **A `..` behind a directory with a backslash** takes back both parts of it in what is shown, and one
of them in the key. -/
theorem item?_path_back_over_backslash :
    let view : FileView := ⟨"/work".toList, fun _ => false⟩
    ∃ g, Reached [.create view "x\\y/../a.h".toList] g ∧ ∃ i ∈ g.items,
      i.key = "/work/x/a.h".toList ∧ i.path = "/work/a.h".toList ∧
        g.item? view.cwd i.path = none := by
  intro view
  refine ⟨_, Reached.nil.snoc (.create view "x\\y/../a.h".toList) trivial,
    ⟨"/work/x/a.h".toList, "/work/a.h".toList, []⟩, ?_, rfl, rfl, ?_⟩
  all_goals decide +kernel

end IncludeTrace.Graph
