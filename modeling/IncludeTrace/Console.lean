import IncludeTrace.Log

/-!
# Console output

A **palette** holds the codes that switch colours and styles; without colours all of them are empty.
What a command prints is a list of **emissions**: text on standard output, text on standard error,
and log entries, which also go to standard error. Keeping them in one list keeps their order.
-/

namespace IncludeTrace

/-- The codes that switch colours and styles of a terminal. -/
structure Palette where
  red : Text
  green : Text
  yellow : Text
  cyan : Text
  white : Text
  reset : Text
  bright : Text
  dim : Text

/-- One thing put out. -/
inductive Emission
  | log (entry : Entry)
  | out (text : Text)
  | err (text : Text)

namespace Palette

/-- The control sequence of a terminal with the given number. -/
private def control (n : Text) : Text := '\x1b' :: '[' :: n ++ ['m']

/-- The codes that terminals understand. -/
def ansi : Palette where
  red := control "31"
  green := control "32"
  yellow := control "33"
  cyan := control "36"
  white := control "37"
  reset := control "0"
  bright := control "1"
  dim := control "2"

/-- No colours at all. -/
def plain : Palette := ⟨[], [], [], [], [], [], [], []⟩

/-- All codes of a palette, colours first. -/
def codes (p : Palette) : List Text :=
  [p.red, p.green, p.yellow, p.cyan, p.white, p.reset, p.bright, p.dim]

/-- A text in a colour and a style; a text without a colour has no style either. -/
def paint (p : Palette) (text color style : Text) : Text :=
  if color.isEmpty then text else style ++ color ++ text ++ p.reset

/-- The line that announces a success. -/
def successLine (p : Palette) (labelled : Bool) (text : Text) : Text :=
  p.paint ((if labelled then "Success: " else "") ++ text) p.green [] ++ ['\n']

/-- The line that reports an error. -/
def errorLine (p : Palette) (labelled : Bool) (text : Text) : Text :=
  p.paint ((if labelled then "Error: " else "") ++ text) p.red [] ++ ['\n']

/-- The line that warns of something. -/
def warningLine (p : Palette) (labelled : Bool) (text : Text) : Text :=
  p.paint ((if labelled then "Warning: " else "") ++ text) p.yellow [] ++ ['\n']

end Palette

namespace Emission

/-- What was printed on standard output. -/
def standardOutput (es : List Emission) : Text :=
  es.flatMap fun
    | out t => t
    | _ => []

/-- What was printed on standard error, log lines aside. -/
def standardError (es : List Emission) : Text :=
  es.flatMap fun
    | err t => t
    | _ => []

/-- What was printed on standard error together with the log lines shown there. -/
def standardErrorWithLog (verbose : Bool) (es : List Emission) : Text :=
  es.flatMap fun
    | err t => t
    | log e => if verbose || e.isNotable then e.line ++ ['\n'] else []
    | out _ => []

/-- The log entries. -/
def entries (es : List Emission) : List Entry :=
  es.filterMap fun
    | log e => some e
    | _ => none

end Emission

end IncludeTrace
