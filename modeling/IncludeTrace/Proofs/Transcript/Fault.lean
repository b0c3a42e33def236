import IncludeTrace.Proofs.Transcript.Trail

/-!
# When a merge fails

A merge has one way to fail: the first trace line of the transcript is nested. No line behind it can
fail, because a merge that has read something always finds what it looks up: every key of its chain is
in the graph, and the tip has an include to descend into (`Progress.lookups_of_follows`). This holds
whatever the graph held before, and so a merge that fails has added the translation unit and nothing
else (`Graph.merge_fails_iff_nested_start`).
-/

namespace IncludeTrace.Merge

variable {s : Setting} {p : Progress} {trail : List Text}

/-- What a merge looks up is there: every key of its chain, and once something was read, the include
that the tip got last. -/
theorem Progress.lookups_of_follows (h : p.Follows s trail) :
    (∀ key ∈ s.root :: p.chain, p.graph.has key) ∧
      (trail ≠ [] → ∃ last, (p.graph.includesOf (p.tip s)).getLast? = some last ∧
        p.graph.has last) := by
  constructor
  · intro key hkey
    rw [h.chain_eq, List.mem_cons, List.mem_reverse] at hkey
    rcases hkey with rfl | hkey
    · exact h.known _ List.mem_cons_self
    · exact h.known _ (List.mem_cons_of_mem _ (List.dropLast_subset _ hkey))
  · intro hne
    have hlast : trail.getLast? = some (trail.getLast hne) := List.getLast?_eq_getLast_of_ne_nil hne
    exact ⟨_, h.last_include _ hlast, h.known _ (List.mem_cons_of_mem _ (List.getLast_mem hne))⟩

/-- A line is at fault exactly if nothing was read before it and it is nested. -/
theorem Progress.add_fails_iff (h : p.Follows s trail) (line : TraceLine) :
    (∃ fault, p.add s line = .error fault) ↔ trail = [] ∧ 0 < line.depth := by
  constructor
  · rintro ⟨fault, hfault⟩
    by_contra hd
    have hdirect : trail = [] → line.depth = 0 := fun e =>
      Nat.eq_zero_of_not_pos fun hpos => hd ⟨e, hpos⟩
    obtain ⟨p', hadd, -⟩ := Progress.step_of_follows h line hdirect
    rw [hadd] at hfault
    cases hfault
  · rintro ⟨rfl, hpos⟩
    exact ⟨_, Progress.add_of_nested h hpos⟩

theorem Setting.trail_eq_nil {lines : List TraceLine} : s.trail lines = [] ↔ lines = [] := by
  rcases List.eq_nil_or_concat lines with rfl | ⟨before, last, rfl⟩
  · exact iff_of_true rfl rfl
  · simp [Setting.trail, Setting.descend]

end IncludeTrace.Merge

namespace IncludeTrace.Graph

open Merge

variable {g : Graph} {view : FileView} {unit marker text : Text} {directories : List Text}

/-- A merge fails exactly if the transcript does not start directly. -/
theorem merge_fails_iff : (∃ fault, (g.merge view unit directories marker text).verdict =
    .error fault) ↔ ¬ StartsDirect (TraceLine.ofText marker text) := by
  constructor
  · rintro ⟨fault, hfault⟩ hdirect
    rw [verdict_merge_of_startsDirect hdirect] at hfault
    cases hfault
  · intro hd
    obtain ⟨first, rest, hlines, hpos⟩ := not_startsDirect_iff.mp hd
    exact ⟨_, (merge_of_nested g view unit directories hlines hpos).2⟩

/-- Extending a graph is merging, with the verdict told as a truth value. -/
theorem extend_eq_merge :
    (g.extend view unit directories marker text).1 =
        (g.merge view unit directories marker text).graph ∧
      ((g.extend view unit directories marker text).2.1 = false ↔
        ∃ fault, (g.merge view unit directories marker text).verdict = .error fault) := by
  rw [extend]
  cases (g.merge view unit directories marker text).verdict <;> simp

/-- **A merge fails on a nested start and on nothing else**, and then it leaves no trace but the
translation unit.

It fails if and only if there is a trace line and the first one is nested; the fault names the depth of
that line and the spelling of the unit, and the graph is the one before with the unit put in. At every
line that a merge comes to, all keys of its chain are in the graph, and unless the line is the first,
the tip has an include; only the first line can be at fault. Extending a graph fails in the same cases
and leaves the same graph. -/
theorem merge_fails_iff_nested_start (g : Graph) (view : FileView) (unit : Text)
    (directories : List Text) (marker text : Text) :
    let lines := TraceLine.ofText marker text
    let s := Setting.ofUnit view unit directories
    let report := g.merge view unit directories marker text
    let extended := g.extend view unit directories marker text
    ((∃ fault, report.verdict = .error fault) ↔
        ∃ first rest, lines = first :: rest ∧ 0 < first.depth) ∧
      (∀ fault, report.verdict = .error fault →
        report.graph = g.ensure view.cwd unit ∧ ∃ first ∈ lines.head?, fault =
          ⟨first.depth, (g.ensure view.cwd unit).pathOf (Path.key view.cwd unit)⟩) ∧
      (∀ before line after p, lines = before ++ line :: after →
        (Progress.start g view.cwd unit).addAll s before = (p, none) →
          (∀ key ∈ s.root :: p.chain, p.graph.has key) ∧
          (before ≠ [] → ∃ last, (p.graph.includesOf (p.tip s)).getLast? = some last ∧
            p.graph.has last) ∧
          ((∃ fault, p.add s line = .error fault) ↔ before = [] ∧ 0 < line.depth)) ∧
      (extended.2.1 = false ↔ ∃ fault, report.verdict = .error fault) ∧
      extended.1 = report.graph := by
  intro lines s report extended
  refine ⟨merge_fails_iff.trans not_startsDirect_iff, fun fault hfault => ?_,
    fun before line after p _ hrun => ?_, extend_eq_merge.2, extend_eq_merge.1⟩
  · obtain ⟨first, rest, hlines, hpos⟩ :=
      not_startsDirect_iff.mp (merge_fails_iff.mp ⟨fault, hfault⟩)
    obtain ⟨hgraph, hverdict⟩ :=
      merge_of_nested g view unit directories hlines hpos
    have hfirst : first ∈ lines.head? := by
      change lines = first :: rest at hlines
      rw [hlines, List.head?_cons, Option.mem_some_iff]
    exact ⟨hgraph, first, hfirst, Except.error.inj (hfault.symm.trans hverdict)⟩
  · -- all lines before were read, so the merge is on the trail of the last of them
    have hfollows : p.Follows s (s.trail before) :=
      Progress.follows_of_addAll (Progress.follows_start g view unit directories) hrun
    obtain ⟨hchain, hlast⟩ := Progress.lookups_of_follows hfollows
    have hfails := Progress.add_fails_iff hfollows line
    rw [Setting.trail_eq_nil] at hfails
    exact ⟨hchain, fun hne => hlast (mt Setting.trail_eq_nil.mp hne), hfails⟩

/-- A nested start is a fault even if the unit has includes already: they are of another merge. -/
theorem merge_fails_iff_nested_start_known_unit :
    let view : FileView := ⟨['/'], fun _ => false⟩
    let g : Graph := ⟨[⟨['/', 'a'], ['/', 'A'], [['/', 'b']]⟩, ⟨['/', 'b'], ['/', 'b'], []⟩]⟩
    let report := g.merge view ['a'] [] ['>'] "noise\n>  c\n>d".toList
    report.graph = g ∧ report.verdict = .error ⟨2, ['/', 'A']⟩ := by
  intro view g report
  obtain ⟨hiff, hfault, -⟩ := merge_fails_iff_nested_start g view ['a'] [] ['>'] "noise\n>  c\n>d".toList
  have hlines : TraceLine.ofText ['>'] "noise\n>  c\n>d".toList = [⟨2, ['c']⟩, ⟨0, ['d']⟩] := by
    decide +kernel
  obtain ⟨fault, hverdict⟩ := hiff.mpr ⟨_, _, hlines, Nat.succ_pos 1⟩
  obtain ⟨hgraph, first, hfirst, hfault⟩ := hfault fault hverdict
  rw [hlines, List.head?_cons, Option.mem_some_iff] at hfirst
  refine ⟨hgraph.trans (by decide +kernel), hverdict.trans ?_⟩
  rw [hfault, ← hfirst]
  decide +kernel

end IncludeTrace.Graph
