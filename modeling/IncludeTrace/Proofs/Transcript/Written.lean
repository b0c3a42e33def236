import IncludeTrace.Proofs.Text.Lines
import IncludeTrace.Transcript.Line
import Mathlib.Data.List.Infix

/-!
# Written transcripts

A transcript is written by putting lines one after another, each with a line end of its own choice;
what stands behind the last line end is a line too. Reading it gives the trace lines of the written
lines, in order (`TraceLine.ofText_written`).

It does not give the written lines themselves. A line that ends in a carriage return, with an empty
line behind it that ends in a line feed, is read as one line: the two ends fuse. But the empty line is
the only one that gets lost this way, and no marker is on it.
-/

namespace IncludeTrace

namespace Text

/-! ### Occurrences of a separator -/

theorem cut?_append (separator t : Text) : cut? separator (separator ++ t) = some ([], t) := by
  cases separator with
  | nil => cases t <;> simp [cut?]
  | cons c rest =>
    have hprefix : (c :: rest).isPrefixOf (c :: (rest ++ t)) = true := by
      rw [List.isPrefixOf_iff_prefix]
      exact List.prefix_append (c :: rest) t
    rw [List.cons_append, cut?, if_pos hprefix]
    simp

/-- A text is cut exactly if the separator occurs in it. -/
theorem cut?_eq_none_iff {separator t : Text} : cut? separator t = none ↔ ¬ separator <:+: t := by
  induction t with
  | nil => simp [cut?]
  | cons c t ih =>
    rw [cut?, List.infix_cons_iff, ← List.isPrefixOf_iff_prefix]
    split
    · next h => simp [h]
    · next h => simp [h, ih]

end Text

namespace TraceLine

open Text (IsLine LineEnd)

variable {marker l path : Text}

/-! ### Single lines -/

/-- A line reports nothing exactly if the marker is not on it. -/
theorem ofLine?_eq_none_iff : ofLine? marker l = none ↔ ¬ marker <:+: l := by
  rw [ofLine?, Option.map_eq_none_iff, Text.cut?_eq_none_iff]

/-- A report as it is written: the marker, a space for every level, the path. -/
def report (marker : Text) (line : TraceLine) : Text :=
  marker ++ (List.replicate line.depth ' ' ++ line.path)

/-- A report is read back if blanks are neither at the end of its path nor, as spaces, in front of
it. -/
theorem ofLine?_report (marker : Text) {line : TraceLine} (hfirst : line.path.head? ≠ some ' ')
    (hlast : Text.trimEnd line.path = line.path) :
    ofLine? marker (line.report marker) = some line := by
  obtain ⟨depth, path⟩ := line
  have htake : path.takeWhile (· = ' ') = [] := by
    cases path with
    | nil => rfl
    | cons c rest => exact List.takeWhile_cons_of_neg (by simpa using hfirst)
  have hdrop : path.dropWhile (· = ' ') = path := by
    cases path with
    | nil => rfl
    | cons c rest => exact List.dropWhile_cons_of_neg (by simpa using hfirst)
  have hspaces : ∀ c ∈ List.replicate depth ' ', decide (c = ' ') = true := fun c hc => by
    simpa using List.eq_of_mem_replicate hc
  rw [ofLine?, report, Text.cut?_append, Option.map_some, ofReport,
    List.takeWhile_append_of_pos hspaces, List.dropWhile_append_of_pos hspaces, htake, hdrop, hlast,
    List.append_nil, List.length_replicate]

/-! ### Whole texts -/

/-- The trace line on a line that ends, and those behind its end. If the end fuses with what stands
behind it, only an empty line is lost. -/
theorem ofText_line_append (hm : marker ≠ []) (hl : IsLine l) (e : LineEnd) (rest : Text) :
    ofText marker (l ++ (e.text ++ rest)) = (ofLine? marker l).toList ++ ofText marker rest := by
  have hnil : ofLine? marker [] = none := ofLine?_eq_none_iff.mpr (by simpa using hm)
  obtain ⟨others, hlines, hothers⟩ : ∃ others, (e.text ++ rest).lines = [] :: others ∧
      ofLines marker others = ofText marker rest := by
    cases e with
    | lf => exact ⟨rest.lines, Text.lines_lf rest, rfl⟩
    | crlf => exact ⟨rest.lines, Text.lines_crlf rest, rfl⟩
    | cr =>
      by_cases hfeed : rest.head? = some '\n'
      · obtain ⟨t, rfl⟩ : ∃ t, rest = '\n' :: t := List.head?_eq_some_iff.mp hfeed
        -- the line feed would have ended an empty line, which reports nothing
        refine ⟨Text.lines t, Text.lines_crlf t, ?_⟩
        rw [ofText, Text.lines_lf, ofLines, ofLines, List.filterMap_cons_none hnil]
      · exact ⟨rest.lines, Text.lines_cr hfeed, rfl⟩
  rw [ofText, Text.lines_append hl hlines, List.append_nil, ofLines, List.filterMap_cons]
  rw [ofLines] at hothers
  cases ofLine? marker l <;> simp [hothers]

/-- **Reading a written text** gives the trace lines of the lines that were written. -/
theorem ofText_written (hm : marker ≠ []) {body : List (Text × LineEnd)} {last : Text}
    (hlines : ∀ l ∈ body.map Prod.fst ++ [last], IsLine l) :
    ofText marker (Text.written body last) = ofLines marker (body.map Prod.fst ++ [last]) := by
  induction body with
  | nil =>
    rw [Text.written, List.flatMap_nil, List.nil_append, ofText,
      Text.lines_of_isLine (hlines last (by simp))]
    rfl
  | cons line rest ih =>
    have hrest : Text.written (line :: rest) last =
        line.1 ++ (line.2.text ++ Text.written rest last) := by
      simp [Text.written]
    rw [hrest, ofText_line_append hm (hlines line.1 (by simp)),
      ih fun l hl => hlines l (List.mem_cons_of_mem _ hl), List.map_cons, List.cons_append, ofLines,
      ofLines, List.filterMap_cons]
    cases ofLine? marker line.1 <;> rfl

/-- Only the lines that the marker is on count. -/
theorem ofLines_filter (marker : Text) (texts : List Text) :
    ofLines marker (texts.filter fun l => marker <:+: l) = ofLines marker texts := by
  rw [ofLines, ofLines, List.filterMap_filter]
  refine List.filterMap_congr fun l _ => ?_
  split
  · rfl
  · next h => exact (ofLine?_eq_none_iff.mpr (by simpa using h)).symm

/-- Lines among which the reports of some trace lines stand, in order, and on which the marker does
not stand otherwise, are read as these trace lines. -/
theorem ofLines_of_filter {texts : List Text} {lines : List TraceLine}
    (hcarry : texts.filter (fun l => marker <:+: l) = lines.map (report marker))
    (hread : ∀ line ∈ lines, ofLine? marker (line.report marker) = some line) :
    ofLines marker texts = lines := by
  rw [← ofLines_filter, hcarry, ofLines, List.filterMap_map]
  calc lines.filterMap (ofLine? marker ∘ report marker)
      = lines.filterMap some := List.filterMap_congr hread
    _ = lines := List.filterMap_some

end TraceLine

end IncludeTrace
