import IncludeTrace.Proofs.Transcript.Fault
import Mathlib.Data.List.Perm.Basic

/-!
# Merges do not depend on each other

What a transcript adds to a graph is the same for all graphs: `Transcript.links` says what it is
without mentioning one, and `Graph.merge_eq_linkAll` says that merging makes just these links. So the
order in which transcripts are merged shows in the order of items and includes, but neither in which
transcripts can be merged, nor in which files there are, nor in how often one of them includes
another.
-/

namespace IncludeTrace

open Merge

/-- A **transcript** with all that its merge is given. -/
structure Transcript where
  unit : Text
  directories : List Text
  marker : Text
  text : Text

namespace Transcript

/-- The trace lines of a transcript. -/
def lines (t : Transcript) : List TraceLine := TraceLine.ofText t.marker t.text

/-- The links that a transcript adds to a graph. If it does not start directly, there are none. -/
def links (view : FileView) (t : Transcript) : List Link :=
  if StartsDirect t.lines then (Setting.ofUnit view t.unit t.directories).links [] t.lines else []

/-- The keys that a transcript adds to the includes of `key`. -/
def added (view : FileView) (t : Transcript) (key : Text) : List Text :=
  ((t.links view).filter fun l => l.parent = key).map (Link.child view.cwd)

/-- Whether a transcript makes sure that there is a file with `key`. -/
def Touches (view : FileView) (t : Transcript) (key : Text) : Prop :=
  Path.key view.cwd t.unit = key ∨ ∃ l ∈ t.links view, l.child view.cwd = key

end Transcript

namespace Graph

variable {g : Graph} {view : FileView} {key : Text}

/-! ### One transcript -/

/-- The links that a merge makes are those of its transcript, whatever graph it starts from. -/
theorem links_start (g : Graph) (view : FileView) (t : Transcript) :
    (Progress.start g view.cwd t.unit).links (.ofUnit view t.unit t.directories) t.lines =
      t.links view := by
  by_cases hd : StartsDirect t.lines
  · obtain ⟨p, hp⟩ := Progress.reads_of_startsDirect g view t.unit t.directories hd
    rw [hp.links_eq, Transcript.links, if_pos hd]
  · obtain ⟨first, rest, hlines, hpos⟩ := not_startsDirect_iff.mp hd
    rw [Transcript.links, if_neg hd, hlines,
      Progress.links_of_nested (Progress.follows_start g view t.unit t.directories) hpos]

/-- **A merge makes the links of its transcript**, once the translation unit is there. -/
theorem merge_eq_linkAll (g : Graph) (view : FileView) (t : Transcript) :
    (g.merge view t.unit t.directories t.marker t.text).graph =
      (g.ensure view.cwd t.unit).linkAll view.cwd (t.links view) := by
  by_cases hd : StartsDirect t.lines
  · rw [Transcript.links, if_pos hd]
    exact graph_merge_of_startsDirect hd
  · obtain ⟨first, rest, hlines, hpos⟩ := not_startsDirect_iff.mp hd
    rw [Transcript.links, if_neg hd]
    exact (merge_of_nested g view t.unit t.directories hlines hpos).1

theorem grounded_transcript (g : Graph) (view : FileView) (t : Transcript) :
    (g.ensure view.cwd t.unit).Grounded view.cwd (t.links view) := by
  rw [Transcript.links]
  split
  · next hd => exact grounded_links hd
  · exact .nil

/-- A merge puts the keys that its transcript adds behind the includes that were there. -/
theorem includesOf_merge (g : Graph) (view : FileView) (t : Transcript) (key : Text) :
    (g.merge view t.unit t.directories t.marker t.text).graph.includesOf key =
      g.includesOf key ++ t.added view key := by
  rw [merge_eq_linkAll, includesOf_linkAll (grounded_transcript g view t), includesOf_ensure,
    Transcript.added]

theorem has_merge (g : Graph) (view : FileView) (t : Transcript) (key : Text) :
    (g.merge view t.unit t.directories t.marker t.text).graph.has key ↔
      g.has key ∨ t.Touches view key := by
  rw [merge_eq_linkAll, has_linkAll, has_ensure, or_assoc, Transcript.Touches]

theorem nodup_keys_merge (t : Transcript) (h : g.keys.Nodup) :
    (g.merge view t.unit t.directories t.marker t.text).graph.keys.Nodup := by
  rw [merge_eq_linkAll]
  exact nodup_keys_linkAll (nodup_keys_ensure h)

/-! ### Many transcripts -/

/-- Extends a graph by transcripts one after another, and tells of each whether it could be merged. -/
def extendAll (view : FileView) (g : Graph) : List Transcript → Graph × List (Transcript × Bool)
  | [] => (g, [])
  | t :: rest =>
    let first := g.extend view t.unit t.directories t.marker t.text
    let others := extendAll view first.1 rest
    (others.1, (t, first.2.1) :: others.2)

variable {t : Transcript} {ts : List Transcript}

theorem extendAll_cons : (g.extendAll view (t :: ts)).1 =
    ((g.merge view t.unit t.directories t.marker t.text).graph.extendAll view ts).1 := by
  rw [extendAll, ← extend_eq_merge.1]

/-- Transcripts may be merged in two goes. -/
theorem extendAll_append {ts' : List Transcript} : (g.extendAll view (ts ++ ts')).1 =
    ((g.extendAll view ts).1.extendAll view ts').1 := by
  induction ts generalizing g with
  | nil => rfl
  | cons t rest ih => rw [List.cons_append, extendAll_cons, ih, extendAll_cons]

/-- Whether a transcript can be merged is told by its first line. -/
theorem flag_extend (g : Graph) (view : FileView) (t : Transcript) :
    (g.extend view t.unit t.directories t.marker t.text).2.1 = decide (StartsDirect t.lines) := by
  rw [Bool.eq_iff_iff, decide_eq_true_iff, ← not_iff_not, Bool.not_eq_true]
  exact extend_eq_merge.2.trans merge_fails_iff

/-- So it does not hang on those before it. -/
theorem flags_extendAll :
    (g.extendAll view ts).2 = ts.map fun t => (t, decide (StartsDirect t.lines)) := by
  induction ts generalizing g with
  | nil => rfl
  | cons t rest ih => rw [extendAll, ih, List.map_cons, flag_extend]

/-- Every transcript adds its own keys to an include list, in the order of the transcripts. -/
theorem includesOf_extendAll : (g.extendAll view ts).1.includesOf key =
    g.includesOf key ++ ts.flatMap fun t => t.added view key := by
  induction ts generalizing g with
  | nil => simp [extendAll]
  | cons t rest ih =>
    rw [extendAll_cons, ih, includesOf_merge, List.flatMap_cons, List.append_assoc]

theorem has_extendAll : (g.extendAll view ts).1.has key ↔
    g.has key ∨ ∃ t ∈ ts, t.Touches view key := by
  induction ts generalizing g with
  | nil => simp [extendAll]
  | cons t rest ih =>
    rw [extendAll_cons, ih, has_merge, or_assoc]
    simp only [List.mem_cons, exists_eq_or_imp]

theorem nodup_keys_extendAll (h : g.keys.Nodup) : (g.extendAll view ts).1.keys.Nodup := by
  induction ts generalizing g with
  | nil => exact h
  | cons t rest ih =>
    rw [extendAll_cons]
    exact ih (nodup_keys_merge t h)

/-- **Merges do not depend on each other.**

Two graphs get the same from one transcript: either both merges fail or none does, and both make the
same links in the same order, so that every include list grows by the same keys. Hence transcripts may
be merged in any order: of each it is told the same whether it could be merged, the files are the same,
and every file includes the same keys equally often. -/
theorem merge_independent :
    (∀ (g₁ g₂ : Graph) (view : FileView) (unit : Text) (directories : List Text)
      (marker text : Text),
      let lines := TraceLine.ofText marker text
      let s := Setting.ofUnit view unit directories
      let report₁ := g₁.merge view unit directories marker text
      let report₂ := g₂.merge view unit directories marker text
      let links₁ := (Progress.start g₁ view.cwd unit).links s lines
      let links₂ := (Progress.start g₂ view.cwd unit).links s lines
      ((∃ fault, report₁.verdict = .error fault) ↔ ∃ fault, report₂.verdict = .error fault) ∧
        links₁ = links₂ ∧
        report₁.graph = (g₁.ensure view.cwd unit).linkAll view.cwd links₁ ∧
        report₂.graph = (g₂.ensure view.cwd unit).linkAll view.cwd links₂ ∧
        ∀ key, ∃ added, report₁.graph.includesOf key = g₁.includesOf key ++ added ∧
          report₂.graph.includesOf key = g₂.includesOf key ++ added) ∧
    ∀ (view : FileView) (ts ts' : List Transcript), ts.Perm ts' →
      let result := empty.extendAll view ts
      let result' := empty.extendAll view ts'
      result.2.Perm result'.2 ∧ result.1.keys.Perm result'.1.keys ∧
        ∀ key, (result.1.includesOf key).Perm (result'.1.includesOf key) := by
  constructor
  · intro g₁ g₂ view unit directories marker text lines s report₁ report₂ links₁ links₂
    let t : Transcript := ⟨unit, directories, marker, text⟩
    -- neither graph occurs in the links of the transcript
    have h₁ : links₁ = t.links view := links_start g₁ view t
    have h₂ : links₂ = t.links view := links_start g₂ view t
    refine ⟨merge_fails_iff.trans merge_fails_iff.symm, h₁.trans h₂.symm, ?_, ?_, fun key =>
      ⟨t.added view key, includesOf_merge g₁ view t key, includesOf_merge g₂ view t key⟩⟩
    · rw [h₁]
      exact merge_eq_linkAll g₁ view t
    · rw [h₂]
      exact merge_eq_linkAll g₂ view t
  · intro view ts ts' hperm result result'
    have hempty : empty.keys.Nodup := List.nodup_nil
    refine ⟨?_, ?_, fun key => ?_⟩
    · rw [flags_extendAll, flags_extendAll]
      exact hperm.map _
    · -- the keys are distinct on both sides, so it is enough that they are the same
      refine (List.perm_ext_iff_of_nodup (nodup_keys_extendAll hempty)
        (nodup_keys_extendAll hempty)).mpr fun key => ?_
      rw [← has_iff_mem_keys, ← has_iff_mem_keys, has_extendAll, has_extendAll]
      simp only [hperm.mem_iff]
    · rw [includesOf_extendAll, includesOf_extendAll]
      exact (hperm.flatMap_right _).append_left _

/-- Backwards, with a header in two units and a transcript that fails: the keys below the header come
in another order, and nothing else about them changes. -/
theorem merge_independent_reversed :
    let view : FileView := ⟨['/'], fun _ => false⟩
    let ts : List Transcript := [⟨['a'], [], ['>'], ">h\n> x".toList⟩,
      ⟨['a'], [], ['>'], "> h".toList⟩, ⟨['b'], [], ['>'], ">H\r> y".toList⟩]
    let result := empty.extendAll view ts
    let result' := empty.extendAll view ts.reverse
    result.1.includesOf ['/', 'h'] = [['/', 'x'], ['/', 'y']] ∧
      result'.1.includesOf ['/', 'h'] = [['/', 'y'], ['/', 'x']] ∧
      result.2.Perm result'.2 ∧ result.1.keys.Perm result'.1.keys ∧
      (result.1.includesOf ['/', 'h']).Perm (result'.1.includesOf ['/', 'h']) := by
  intro view ts result result'
  obtain ⟨hflags, hkeys, hincludes⟩ :=
    merge_independent.2 view ts ts.reverse ts.reverse_perm.symm
  exact ⟨by decide +kernel, by decide +kernel, hflags, hkeys, hincludes _⟩

end Graph

end IncludeTrace
