import IncludeTrace.Text.Basic

/-!
# Log entries

What the library has to say while it works is a list of entries, each with a level. Entries are
returned, in order, beside the results; which of them are shown is decided outside.
-/

namespace IncludeTrace

/-- How much an entry matters, least first. -/
inductive Level
  | debug
  | info
  | warning
  | error
  | critical
  deriving DecidableEq

/-- The name a level is shown under. -/
def Level.name : Level → Text
  | debug => "DEBUG"
  | info => "INFO"
  | warning => "WARNING"
  | error => "ERROR"
  | critical => "CRITICAL"

/-- One **entry** of the log. -/
structure Entry where
  level : Level
  text : Text
  deriving DecidableEq

namespace Entry

/-- Whether the entry is shown without asking for details. -/
def isNotable (e : Entry) : Bool := e.level ≠ .debug

/-- The line an entry is shown as. -/
def line (e : Entry) : Text := e.level.name ++ ": " ++ e.text

end Entry

end IncludeTrace
