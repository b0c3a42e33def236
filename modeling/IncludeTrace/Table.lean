import IncludeTrace.Text.Basic

/-!
# Tables

A **table** keeps values under names, in the order in which the names were first used. A new value
for a name takes the place of the old one. Names are texts unless another type is given.
-/

namespace IncludeTrace

/-- Values under names, in order of first use. -/
abbrev Table (α : Type) (κ : Type := Text) := List (κ × α)

namespace Table

variable {α κ : Type} [DecidableEq κ]

/-- The value under a name. -/
def get? (table : Table α κ) (name : κ) : Option α :=
  (table.find? fun entry => entry.1 = name).map Prod.snd

/-- Whether there is a value under a name. -/
def has (table : Table α κ) (name : κ) : Bool := (table.get? name).isSome

/-- Puts a value under a name. -/
def put (name : κ) (value : α) : Table α κ → Table α κ
  | [] => [(name, value)]
  | entry :: rest => if entry.1 = name then (name, value) :: rest else entry :: put name value rest

/-- The table that results from putting values one after another. -/
def ofPairs (pairs : List (κ × α)) : Table α κ :=
  pairs.foldl (fun table pair => table.put pair.1 pair.2) []

end Table

end IncludeTrace
