import IncludeTrace.Graph.Basic

/-!
# Include trees

`Graph.treeLines` draws what a file includes, directly and indirectly, as indented lines. Each file is
opened at most once: when it comes up again its line carries a mark and its includes are not drawn
again, so cycles end. A depth limit keeps files from being opened below it.

The walk keeps the items that were not met yet (`fresh`) and, for each file on the way down, the
includes still to be drawn. Every step takes an item out of `fresh` or shortens the rest.
-/

namespace IncludeTrace

namespace Drawing

/-- The mark of a file that was drawn before. -/
def repeatedMark : Text := "(see above)"

/-- A file on the way down: the depth of its includes and those of them still to be drawn. -/
structure Frame where
  depth : Nat
  rest : List Text

/-- The work left in frames. -/
def load (frames : List Frame) : Nat := frames.foldr (fun f n => f.rest.length + 1 + n) 0

/-- The item with a key, and the others. -/
def take? (key : Text) : List Item → Option (Item × List Item)
  | [] => none
  | i :: rest =>
    if i.key = key then some (i, rest)
    else (take? key rest).map fun found => (found.1, i :: found.2)

theorem length_of_take? {key : Text} {items : List Item} {found : Item × List Item}
    (h : take? key items = some found) : found.2.length + 1 = items.length := by
  induction items generalizing found with
  | nil => simp [take?] at h
  | cons i rest ih =>
    by_cases hi : i.key = key
    · simp [take?, hi] at h
      simp [← h]
    · simp only [take?, hi, if_false, Option.map_eq_some_iff] at h
      obtain ⟨f, hf, rfl⟩ := h
      simp [ih hf]

/-- Whether the includes of a file at `depth` are drawn; the limit 0 is none. -/
def opens (limit : Int) (depth : Nat) : Bool := limit ≤ 0 || depth < limit

/-- The lines that frames still ask for. -/
def draw (g : Graph) (limit : Int) (indent : Text) (fresh : List Item) : List Frame → List Text
  | [] => []
  | ⟨_, []⟩ :: frames => draw g limit indent fresh frames
  | ⟨depth, child :: rest⟩ :: frames =>
    match h : take? child fresh with
    | none =>
      (Text.times depth indent ++ g.pathOf child ++ ' ' :: repeatedMark) ::
        draw g limit indent fresh (⟨depth, rest⟩ :: frames)
    | some (item, fresh') =>
      (Text.times depth indent ++ item.path) ::
        draw g limit indent fresh'
          (if opens limit depth then ⟨depth + 1, item.includes⟩ :: ⟨depth, rest⟩ :: frames
            else ⟨depth, rest⟩ :: frames)
termination_by frames => (fresh.length, load frames)
decreasing_by
  · exact Prod.Lex.right _ (by simp [load])
  · exact Prod.Lex.right _ (by simp [load])
  · exact Prod.Lex.left _ _ (by have := length_of_take? h; simp at this; omega)

end Drawing

open Drawing in
/-- The **tree** of an item: its own path, then a line for every include, indented by its depth. -/
def Graph.treeLines (g : Graph) (limit : Int) (indent : Text) (root : Item) : List Text :=
  root.path :: draw g limit indent (g.items.filter fun i => i.key ≠ root.key) [⟨1, root.includes⟩]

end IncludeTrace
