import IncludeTrace.Proofs.Transcript.Written
import IncludeTrace.Transcript.Merge

/-!
# Noise and line ends

Of a transcript only the lines that the marker is on are merged. The lines between them are noise, and
it does not matter how lines end: `Graph.merge_of_same_reports` compares two texts that are written from
lines, each with an end of its own choice, and asks no more than that the same lines carry the marker,
in the same order.

The texts need not have equally many lines when they are read. An empty line is lost where its line feed
fuses with a carriage return in front of it; but no marker is on it, so `TraceLine.ofText_written`
holds. Nothing is left out by looking at written texts, because every text is written from the lines
that are read from it (`Text.exists_written`).
-/

namespace IncludeTrace

namespace Merge

/-- What is counted in a transcript, its lines aside: trace lines, includes and the greatest depth. -/
def Stats.counts (s : Stats) : ℕ × ℕ × ℕ := (s.traceLines, s.edgesAdded, s.maxDepth)

/-- Two merges **agree** if they make the same graph, and have the same counts or the same fault. -/
def Report.Agrees (r r' : Report) : Prop :=
  r.graph = r'.graph ∧ r.verdict.map Stats.counts = r'.verdict.map Stats.counts

end Merge

namespace Graph

open Merge
open Text (IsLine LineEnd written)

variable {marker : Text}

/-- Merges of the same trace lines agree. -/
theorem merge_of_same_lines (g : Graph) (view : FileView) (unit : Text) (directories : List Text)
    {text text' : Text} (h : TraceLine.ofText marker text = TraceLine.ofText marker text') :
    (g.merge view unit directories marker text).Agrees
      (g.merge view unit directories marker text') := by
  rw [TraceLine.ofText, TraceLine.ofText] at h
  simp only [Report.Agrees, merge, h]
  -- all of the lines were read, or one was at fault
  split <;> exact ⟨rfl, rfl⟩

/-- **Noise and line ends do not show in what is merged.**

Let two texts be written from lines, of which the same carry the marker, in the same order; each line has
a line end of its own choice behind it, and the last one has none. Then their merges, into any graph and
under any unit and directories, make the same graph and count the same trace lines, includes and greatest
depth, or have the same fault. This is about all texts, because every text is written from the lines that
are read from it. -/
theorem merge_of_same_reports (g : Graph) (view : FileView) (unit : Text) (directories : List Text)
    (hm : marker ≠ []) :
    (∀ (body body' : List (Text × LineEnd)) (last last' : Text),
      (∀ l ∈ body.map Prod.fst ++ [last], IsLine l) →
      (∀ l ∈ body'.map Prod.fst ++ [last'], IsLine l) →
      ((body.map Prod.fst ++ [last]).filter fun l => marker <:+: l) =
        ((body'.map Prod.fst ++ [last']).filter fun l => marker <:+: l) →
      (g.merge view unit directories marker (written body last)).Agrees
        (g.merge view unit directories marker (written body' last'))) ∧
    ∀ text : Text, ∃ body last, written body last = text ∧
      body.map Prod.fst ++ [last] = text.lines ∧ ∀ l ∈ text.lines, IsLine l := by
  refine ⟨fun body body' last last' hlines hlines' hsame => ?_, Text.exists_written⟩
  refine merge_of_same_lines g view unit directories ?_
  calc TraceLine.ofText marker (written body last)
      = TraceLine.ofLines marker (body.map Prod.fst ++ [last]) := TraceLine.ofText_written hm hlines
    _ = TraceLine.ofLines marker (body'.map Prod.fst ++ [last']) := by
      rw [← TraceLine.ofLines_filter, hsame, TraceLine.ofLines_filter]
    _ = TraceLine.ofText marker (written body' last') := (TraceLine.ofText_written hm hlines').symm

/-- Six lines, one of which fuses away, and two lines: the one text is read as five lines, and merged like
the other. -/
theorem merge_of_same_reports_fused :
    let view : FileView := ⟨['/'], fun _ => false⟩
    let body : List (Text × LineEnd) := [([], .crlf), (">a".toList, .cr), ([], .lf), ([], .cr),
      ("> b".toList, .cr)]
    let report := empty.merge view ['u'] [] ['>'] (written body "noise".toList)
    let report' := empty.merge view ['u'] [] ['>'] (written [(">a".toList, .lf)] "> b".toList)
    written body "noise".toList = "\r\n>a\r\n\r> b\rnoise".toList ∧
      (written body "noise".toList).lines.length = 5 ∧ report.Agrees report' ∧
      report'.graph.includesOf ['/', 'a'] = [['/', 'b']] ∧
      report.verdict.map Stats.counts = .ok (2, 2, 1) := by
  intro view body report report'
  have hlines : ∀ l ∈ body.map Prod.fst ++ ["noise".toList], IsLine l := by decide
  have hlines' : ∀ l ∈ [(">a".toList, LineEnd.lf)].map Prod.fst ++ ["> b".toList], IsLine l := by decide
  have hagrees : report.Agrees report' :=
    (merge_of_same_reports empty view ['u'] [] (List.cons_ne_nil '>' [])).1 _ _ _ _ hlines hlines'
      (by decide)
  refine ⟨by decide, by decide, hagrees, by decide +kernel, hagrees.2.trans ?_⟩
  rfl

end Graph

end IncludeTrace
