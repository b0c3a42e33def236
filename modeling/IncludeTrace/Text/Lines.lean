import IncludeTrace.Text.Basic

/-!
# Lines

A line ends at a line feed, at a carriage return, or at the two together. `Text.lines` gives the
lines without their ends, `Text.unifyLines` writes every line end as a line feed.
-/

namespace IncludeTrace.Text

/-- The lines of a text; there is always at least one, the last being what follows the last line
end. -/
def lines : Text → List Text
  | [] => [[]]
  | '\r' :: '\n' :: t => [] :: lines t
  | c :: t =>
    if c = '\r' ∨ c = '\n' then [] :: lines t
    else match lines t with
      | [] => [[c]]
      | line :: rest => (c :: line) :: rest

/-- The text with every line end written as a line feed. -/
def unifyLines : Text → Text
  | [] => []
  | '\r' :: '\n' :: t => '\n' :: unifyLines t
  | c :: t => (if c = '\r' then '\n' else c) :: unifyLines t

end IncludeTrace.Text
