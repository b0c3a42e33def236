import IncludeTrace.Text.Blank
import IncludeTrace.Text.Lines

/-!
# Trace lines

A transcript is what a compiler printed. A line of it that holds the **marker** reports that a file
was opened: the spaces behind the marker are the depth of the file below the translation unit, and
the rest of the line, without the blanks at its end, is its path. All other lines are noise.
-/

namespace IncludeTrace

/-- One reported file. -/
structure TraceLine where
  depth : Nat
  path : Text
  deriving DecidableEq

namespace TraceLine

/-- The marker that compilers use. -/
def standardMarker : Text := "Note: including file: "

/-- The trace line that follows the marker. -/
def ofReport (report : Text) : TraceLine :=
  ⟨(report.takeWhile (· = ' ')).length, Text.trimEnd (report.dropWhile (· = ' '))⟩

/-- The trace line on a line of the transcript, if the marker is on it. -/
def ofLine? (marker line : Text) : Option TraceLine :=
  (Text.cut? marker line).map fun parts => ofReport parts.2

/-- The trace lines among the lines of a transcript. -/
def ofLines (marker : Text) (lines : List Text) : List TraceLine := lines.filterMap (ofLine? marker)

/-- The trace lines of a transcript. -/
def ofText (marker text : Text) : List TraceLine := ofLines marker text.lines

end TraceLine

end IncludeTrace
