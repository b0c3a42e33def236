import IncludeTrace.CommandLine.Value
import IncludeTrace.Proofs.Graph.History
import IncludeTrace.Proofs.Transcript.Parents
import IncludeTrace.Transcript.Void
import Mathlib.Data.List.TakeWhile

/-!
# Attempts

The program makes one **attempt** after another to merge a transcript into its graph. Some have nothing
to merge; others have a transcript, and behind its directories there may be a void one. `Attempt.merge`
is what an attempt does to a graph, and `Attempt.succeeds` whether it succeeds. Neither asks what other
attempts did: an attempt adds its own links behind those that are there (`Attempt.includesOf_merge`).

An attempt that fails leaves its unit in the graph at most, with one exception: a merge that comes to a
void directory keeps the links of the lines in front. So the includes are those that the successful
attempts alone would have made, with these (`Attempt.includesOf_mergeAll_kept`), and every other key is
that of a unit whose transcript was malformed (`Attempt.has_mergeAll_kept`).
-/

namespace IncludeTrace

open Merge
open CommandLine (Value)

/-! ### Merging up to a void directory -/

namespace Transcript

variable {view : FileView} {t : Transcript}

/-- Whether the search for a reported file ends in front of a directory behind the others. -/
def isFound (view : FileView) (t : Transcript) (line : TraceLine) : Bool :=
  isResolved view (Setting.ofUnit view t.unit t.directories).directories line.path

/-- The number of trace lines in front of the first one that is not found. -/
def countFound (view : FileView) (t : Transcript) : ℕ := (t.lines.takeWhile (t.isFound view)).length

theorem take_countFound : t.lines.take (t.countFound view) = t.lines.takeWhile (t.isFound view) :=
  (List.prefix_iff_eq_take.mp (List.takeWhile_prefix _)).symm

theorem links_of_not_startsDirect (h : ¬ StartsDirect t.lines) : t.links view = [] := by
  rw [links, if_neg h]

/-- If all lines are found, none of the links is left out. -/
theorem take_countFound_links (h : ∀ line ∈ t.lines, t.isFound view line) :
    (t.links view).take (t.countFound view) = t.links view := by
  refine List.take_of_length_le ?_
  rw [countFound, List.takeWhile_eq_self_iff.mpr h, links]
  split
  · exact Setting.length_links.le
  · exact Nat.zero_le _

end Transcript

namespace Graph

variable {g : Graph} {view : FileView} {t : Transcript}

/-- Extending a graph makes the links of a transcript, and succeeds if it starts directly. -/
theorem extend_eq_linkAll (g : Graph) (view : FileView) (t : Transcript) :
    (g.extend view t.unit t.directories t.marker t.text).1 =
        (g.ensure view.cwd t.unit).linkAll view.cwd (t.links view) ∧
      (g.extend view t.unit t.directories t.marker t.text).2.1 = decide (StartsDirect t.lines) :=
  ⟨extend_eq_merge.1.trans (merge_eq_linkAll g view t), flag_extend g view t⟩

/-- **Merging up to a void directory** makes the links of the lines in front of the first one that is not
found. It succeeds if there is none such and the transcript starts directly. -/
theorem extendToVoid_eq_linkAll (g : Graph) (view : FileView) (t : Transcript) (reason : Text) :
    let r := g.extendToVoid view t.unit t.directories t.marker t.text reason
    r.1 = (g.ensure view.cwd t.unit).linkAll view.cwd ((t.links view).take (t.countFound view)) ∧
      r.2.1 = (decide (StartsDirect t.lines) && t.lines.all (t.isFound view)) := by
  intro r
  obtain ⟨hgraph, hflag⟩ := extend_eq_linkAll g view t
  simp only [r, extendToVoid]
  split
  · next p line rest hrun hrest =>
    change Progress.addAll _ _ (t.lines.takeWhile (t.isFound view)) = (p, none) at hrun
    change t.lines.dropWhile (t.isFound view) = line :: rest at hrest
    have hall : t.lines.all (t.isFound view) = false := by
      rw [Bool.eq_false_iff, Ne, List.all_eq_true, ← List.dropWhile_eq_nil_iff, hrest]
      exact List.cons_ne_nil line rest
    rw [← mergeFirst_eq_linkAll, mergeFirst, Transcript.take_countFound, hrun, hall, Bool.and_false]
    split <;> exact ⟨rfl, rfl⟩
  · next hnone =>
    rw [hgraph, hflag]
    by_cases hd : StartsDirect t.lines
    · -- the lines in front could be merged, so there are none behind them
      have hdirect : StartsDirect (t.lines.takeWhile (t.isFound view)) :=
        @Transcript.take_countFound view t ▸ hd.take _
      obtain ⟨p, hp⟩ := Progress.reads_of_startsDirect g view t.unit t.directories hdirect
      have hrest : t.lines.dropWhile (t.isFound view) = [] := by
        cases hrest : t.lines.dropWhile (t.isFound view) with
        | nil => rfl
        | cons line rest => exact (hnone p line rest hp.run hrest).elim
      have hall := List.dropWhile_eq_nil_iff.mp hrest
      rw [Transcript.take_countFound_links hall, List.all_eq_true.mpr hall, Bool.and_true]
      exact ⟨rfl, rfl⟩
    · rw [Transcript.links_of_not_startsDirect hd, List.take_nil, decide_eq_false hd, Bool.false_and]
      exact ⟨rfl, rfl⟩

theorem Grounded.take {cwd : Text} {links : List Link} (h : Grounded cwd g links) (n : ℕ) :
    Grounded cwd g (links.take n) := by
  induction h generalizing n with
  | nil => rw [List.take_nil]; exact .nil
  | cons hparent _ ih =>
    cases n with
    | zero => exact .nil
    | succ n => exact .cons hparent (ih n)

end Graph

/-! ### One attempt -/

/-- What an **attempt** at a trace got to merge: nothing, because something was lacking or because it was
interrupted, or a transcript. Behind the directories of a transcript there may be a void one. -/
inductive Attempt
  | lacking (root : Value)
  | interrupted (root : Value)
  | supplied (t : Transcript) (void : Bool)

namespace Attempt

/-- The file that was to be traced. -/
def root : Attempt → Value
  | lacking root | interrupted root => root
  | supplied t _ => some t.unit

/-- Whether an attempt was interrupted. -/
def isInterrupted : Attempt → Bool
  | interrupted _ => true
  | _ => false

/-- Whether an attempt got a transcript that cannot be merged, because it starts with a nested line. -/
def isMalformed : Attempt → Bool
  | supplied t _ => !decide (StartsDirect t.lines)
  | _ => false

/-- Whether an attempt is **cut** short: it gets a transcript that could be merged, but the search for
one of its files comes to a void directory. -/
def isCut (view : FileView) : Attempt → Bool
  | supplied t true => decide (StartsDirect t.lines) && !t.lines.all (t.isFound view)
  | _ => false

/-- Whether the whole transcript is merged. -/
def succeeds (view : FileView) : Attempt → Bool
  | supplied t void => decide (StartsDirect t.lines) && (!void || t.lines.all (t.isFound view))
  | _ => false

/-- The graph after an attempt. The merge of one that is cut breaks off behind the lines in front of the
one that is not found. -/
def merge (view : FileView) (g : Graph) (a : Attempt) : Graph :=
  match a with
  | supplied t _ =>
    if a.isCut view then g.mergeFirst view t (t.countFound view)
    else (g.merge view t.unit t.directories t.marker t.text).graph
  | _ => g

/-- The links that an attempt makes. -/
def links (view : FileView) : Attempt → List Link
  | supplied t true => (t.links view).take (t.countFound view)
  | supplied t false => t.links view
  | _ => []

/-- The keys that an attempt adds to the includes of `key`. -/
def added (view : FileView) (a : Attempt) (key : Text) : List Text :=
  ((a.links view).filter fun l => l.parent = key).map (Link.child view.cwd)

/-- Whether an attempt makes sure that there is a file with `key`. -/
def Touches (view : FileView) (a : Attempt) (key : Text) : Prop :=
  match a with
  | supplied t _ =>
    Path.key view.cwd t.unit = key ∨ ∃ l ∈ a.links view, l.child view.cwd = key
  | _ => False

variable {view : FileView} {g : Graph} {a : Attempt} {t : Transcript} {void : Bool} {key : Text}

theorem links_of_malformed (h : a.isMalformed) : a.links view = [] := by
  cases a with
  | lacking | interrupted => rfl
  | supplied t void =>
    have hd : ¬ StartsDirect t.lines := by simpa [isMalformed] using h
    cases void <;> simp [links, t.links_of_not_startsDirect hd]

/-- **An attempt with a transcript makes its links**, once the translation unit is there. -/
theorem merge_supplied (view : FileView) (g : Graph) (t : Transcript) (void : Bool) :
    merge view g (supplied t void) =
      (g.ensure view.cwd t.unit).linkAll view.cwd ((supplied t void).links view) := by
  rw [merge]
  split
  · next hcut =>
    cases void with
    | false => cases hcut
    | true => exact Graph.mergeFirst_eq_linkAll g view t _
  · next hcut =>
    rw [Graph.merge_eq_linkAll]
    cases void with
    | false => rfl
    | true =>
      -- what is not cut has no links to leave out
      by_cases hd : StartsDirect t.lines
      · have hall : ∀ line ∈ t.lines, t.isFound view line := by simpa [isCut, hd] using hcut
        rw [links, Transcript.take_countFound_links hall]
      · rw [links, Transcript.links_of_not_startsDirect hd, List.take_nil]

/-- An attempt adds its keys behind the includes that were there. -/
theorem includesOf_merge :
    (merge view g a).includesOf key = g.includesOf key ++ a.added view key := by
  cases a with
  | lacking | interrupted => exact (List.append_nil _).symm
  | supplied t void =>
    have hgrounded : (g.ensure view.cwd t.unit).Grounded view.cwd
        ((supplied t void).links view) := by
      cases void with
      | false => exact Graph.grounded_transcript g view t
      | true => exact (Graph.grounded_transcript g view t).take _
    rw [merge_supplied, Graph.includesOf_linkAll hgrounded, Graph.includesOf_ensure, added]

theorem has_merge : (merge view g a).has key ↔ g.has key ∨ a.Touches view key := by
  cases a with
  | lacking | interrupted => simp [merge, Touches]
  | supplied t void =>
    rw [merge_supplied, Graph.has_linkAll, Graph.has_ensure, or_assoc, Touches]

/-! ### Many attempts -/

/-- The graph after attempts, one after another. -/
def mergeAll (view : FileView) (g : Graph) (as : List Attempt) : Graph := as.foldl (merge view) g

/-- Whether the graph **keeps** includes of an attempt: it succeeds or is cut. -/
def isKept (view : FileView) (a : Attempt) : Bool := a.succeeds view || a.isCut view

variable {as : List Attempt}

theorem includesOf_mergeAll : (mergeAll view g as).includesOf key =
    g.includesOf key ++ as.flatMap fun a => a.added view key := by
  induction as generalizing g with
  | nil => simp [mergeAll]
  | cons a rest ih =>
    rw [mergeAll, List.foldl_cons, ← mergeAll, ih, includesOf_merge, List.flatMap_cons,
      List.append_assoc]

theorem has_mergeAll : (mergeAll view g as).has key ↔
    g.has key ∨ ∃ a ∈ as, a.Touches view key := by
  induction as generalizing g with
  | nil => simp [mergeAll]
  | cons a rest ih =>
    rw [mergeAll, List.foldl_cons, ← mergeAll, ih, has_merge, or_assoc]
    simp only [List.mem_cons, exists_eq_or_imp]

/-- What is kept are the attempts with a transcript that is not malformed. -/
theorem isKept_supplied : (supplied t void).isKept view = !(supplied t void).isMalformed := by
  by_cases hd : StartsDirect t.lines <;> cases void <;> simp [isKept, succeeds, isCut, isMalformed, hd]

theorem added_of_not_isKept (h : a.isKept view = false) : a.added view key = [] := by
  cases a with
  | lacking | interrupted => rfl
  | supplied t void =>
    have hmalformed : (supplied t void).isMalformed := by simpa [isKept_supplied] using h
    rw [added, links_of_malformed hmalformed]
    rfl

/-- An attempt of which nothing is kept touches its own unit at most, and only if its transcript is
malformed. -/
theorem touches_of_not_isKept (h : a.isKept view = false) : a.Touches view key ↔
    a.isMalformed ∧ a.root.map (Path.key view.cwd) = some key := by
  cases a with
  | lacking | interrupted => simp [Touches, isMalformed]
  | supplied t void =>
    have hmalformed : (supplied t void).isMalformed := by simpa [isKept_supplied] using h
    simp [Touches, links_of_malformed hmalformed, hmalformed, Attempt.root]

/-- **Attempts of which nothing is kept add no includes.** -/
theorem includesOf_mergeAll_kept : (mergeAll view g as).includesOf key =
    (mergeAll view g (as.filter (isKept view))).includesOf key := by
  rw [includesOf_mergeAll, includesOf_mergeAll]
  congr 1
  induction as with
  | nil => rfl
  | cons a rest ih =>
    rw [List.flatMap_cons, ih]
    cases hkept : a.isKept view with
    | true => rw [List.filter_cons_of_pos hkept, List.flatMap_cons]
    | false =>
      rw [List.filter_cons_of_neg (by simp [hkept]), added_of_not_isKept hkept, List.nil_append]

/-- **They add no files** but the units of malformed transcripts. -/
theorem has_mergeAll_kept : (mergeAll view g as).has key ↔
    (mergeAll view g (as.filter (isKept view))).has key ∨ ∃ a ∈ as, a.isMalformed ∧
      a.root.map (Path.key view.cwd) = some key := by
  rw [has_mergeAll, has_mergeAll, or_assoc]
  refine or_congr_right ?_
  constructor
  · rintro ⟨a, ha, htouches⟩
    cases hkept : a.isKept view with
    | true => exact .inl ⟨a, List.mem_filter.mpr ⟨ha, hkept⟩, htouches⟩
    | false => exact .inr ⟨a, ha, (touches_of_not_isKept hkept).mp htouches⟩
  · rintro (⟨a, ha, htouches⟩ | ⟨a, ha, hmalformed, hroot⟩)
    · exact ⟨a, (List.mem_filter.mp ha).1, htouches⟩
    · have hkept : a.isKept view = false := by
        cases a with
        | lacking | interrupted => rfl
        | supplied t void => simp [isKept_supplied, hmalformed]
      exact ⟨a, ha, (touches_of_not_isKept hkept).mpr ⟨hmalformed, hroot⟩⟩

end Attempt

end IncludeTrace
