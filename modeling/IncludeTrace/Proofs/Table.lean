import IncludeTrace.Table
import Mathlib.Data.List.Induction
import Mathlib.Data.List.Nodup

/-!
# Finding what was put into a table

A table answers with the value that was put under a name last (`Table.get?_put`, `Table.get?_ofPairs`).
Values under new names come behind the others (`Table.put_of_not_mem`), so pairs under distinct names are
a table as they stand (`Table.ofPairs_of_nodup`). Putting values keeps names distinct
(`Table.nodup_put`), and then every entry is found (`Table.get?_of_mem`).
-/

namespace IncludeTrace.Table

variable {α κ : Type} [DecidableEq κ] {name : κ} {value : α}

/-- A value is found under its own name, and under every other name what was there before. -/
theorem get?_put (table : Table α κ) (name name' : κ) (value : α) :
    (table.put name value).get? name' = if name = name' then some value else table.get? name' := by
  induction table with
  | nil => by_cases h : name = name' <;> simp [put, get?, h]
  | cons entry rest ih =>
    rw [put]
    by_cases hentry : entry.1 = name
    · by_cases h : name = name' <;> simp [get?, hentry, h]
    · rw [if_neg hentry]
      simp only [get?, List.find?_cons] at ih ⊢
      by_cases h : entry.1 = name'
      · have hne : name ≠ name' := fun hname => hentry (h.trans hname.symm)
        simp [h, hne]
      · simpa [h] using ih

/-- A value under a new name comes last. -/
theorem put_of_not_mem {table : Table α κ} (h : name ∉ table.map Prod.fst) :
    table.put name value = table ++ [(name, value)] := by
  induction table with
  | nil => rfl
  | cons entry rest ih =>
    rw [List.map_cons, List.mem_cons, not_or] at h
    rw [put, if_neg (Ne.symm h.1), ih h.2, List.cons_append]

/-- What is made of every value under its name is found in its place. -/
theorem get?_map {β : Type} (f : κ → α → β) (table : Table α κ) (name : κ) :
    Table.get? (table.map fun entry => (entry.1, f entry.1 entry.2)) name =
      (table.get? name).map (f name) := by
  induction table with
  | nil => rfl
  | cons entry rest ih =>
    simp only [get?, List.map_cons, List.find?_cons] at ih ⊢
    by_cases h : entry.1 = name
    · simp [h]
    · simpa [h] using ih

/-- The names stay, and a new one comes last. -/
theorem names_put (table : Table α κ) (name : κ) (value : α) :
    (table.put name value).map Prod.fst =
      if name ∈ table.map Prod.fst then table.map Prod.fst else table.map Prod.fst ++ [name] := by
  induction table with
  | nil => rfl
  | cons entry rest ih =>
    rw [put]
    by_cases hentry : entry.1 = name
    · simp [hentry]
    · rw [if_neg hentry, List.map_cons, ih]
      by_cases h : name ∈ rest.map Prod.fst <;> simp [h, Ne.symm hentry]

theorem nodup_put {table : Table α κ} (h : (table.map Prod.fst).Nodup) (name : κ) (value : α) :
    ((table.put name value).map Prod.fst).Nodup := by
  rw [names_put]
  split
  · exact h
  · next hnew => exact h.append (List.nodup_singleton name) (List.disjoint_singleton.mpr hnew)

/-- One pair more is one value put more. -/
theorem ofPairs_concat (pairs : List (κ × α)) (pair : κ × α) :
    ofPairs (pairs ++ [pair]) = (ofPairs pairs).put pair.1 pair.2 := by
  rw [ofPairs, List.foldl_concat, ofPairs]

/-- **The last value under a name is found.** -/
theorem get?_ofPairs (pairs : List (κ × α)) (name : κ) :
    (ofPairs pairs).get? name =
      (pairs.filter fun pair => pair.1 = name).getLast?.map Prod.snd := by
  induction pairs using List.reverseRecOn with
  | nil => rfl
  | append_singleton pairs pair ih =>
    rw [ofPairs_concat, get?_put, List.filter_append]
    by_cases h : pair.1 = name
    · rw [if_pos h, List.filter_cons_of_pos (by simpa using h), List.filter_nil, List.getLast?_concat,
        Option.map_some]
    · rw [if_neg h, List.filter_cons_of_neg (by simpa using h), List.filter_nil, List.append_nil, ih]

theorem nodup_ofPairs (pairs : List (κ × α)) : ((ofPairs pairs).map Prod.fst).Nodup := by
  induction pairs using List.reverseRecOn with
  | nil => exact List.nodup_nil
  | append_singleton pairs pair ih =>
    rw [ofPairs_concat]
    exact nodup_put ih pair.1 pair.2

/-- Nothing comes into a table but what is put there. -/
theorem of_mem_put {table : Table α κ} {entry : κ × α} (h : entry ∈ table.put name value) :
    entry = (name, value) ∨ entry ∈ table := by
  induction table with
  | nil => exact .inl (List.mem_singleton.mp h)
  | cons first rest ih =>
    rw [put] at h
    split at h
    · exact (List.mem_cons.mp h).imp_right (List.mem_cons_of_mem first)
    · rcases List.mem_cons.mp h with rfl | h
      · exact .inr List.mem_cons_self
      · exact (ih h).imp_right (List.mem_cons_of_mem first)

/-- **Every entry of a table with distinct names is found.** -/
theorem get?_of_mem {table : Table α κ} (hn : (table.map Prod.fst).Nodup)
    (h : (name, value) ∈ table) : table.get? name = some value := by
  induction table with
  | nil => cases h
  | cons first rest ih =>
    rw [List.map_cons, List.nodup_cons] at hn
    rcases List.mem_cons.mp h with rfl | h
    · simp [get?]
    · have hne : first.1 ≠ name := fun e => hn.1 (e ▸ List.mem_map_of_mem h)
      have hrest := ih hn.2 h
      simpa [get?, List.find?_cons, hne] using hrest

/-- Pairs under distinct names are a table as they stand. -/
theorem ofPairs_of_nodup {pairs : List (κ × α)} (h : (pairs.map Prod.fst).Nodup) :
    ofPairs pairs = pairs := by
  have hput : ∀ table : Table α κ, ((table ++ pairs).map Prod.fst).Nodup →
      pairs.foldl (fun table pair => table.put pair.1 pair.2) table = table ++ pairs := by
    clear h
    induction pairs with
    | nil => simp
    | cons pair rest ih =>
      intro table hn
      have hnew : pair.1 ∉ table.map Prod.fst := by
        rw [List.map_append, List.map_cons] at hn
        exact fun hmem => List.disjoint_of_nodup_append hn hmem List.mem_cons_self
      rw [List.foldl_cons, put_of_not_mem hnew, ih _ (by simpa using hn), List.append_assoc]
      rfl
  simpa [ofPairs] using hput [] h

end IncludeTrace.Table
