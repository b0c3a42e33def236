import IncludeTrace.Text.Printable

/-!
# Quoted texts

Messages show a text **quoted**: between single quotes, or between double quotes when it holds a
single quote and no double one. The quote in use and the backslash are escaped, line feeds, returns
and tabs have short escapes, and any other character that is not printable is written by its number.
-/

namespace IncludeTrace

namespace Quoted

/-- The quote to put around a text. -/
def mark (t : Text) : Char := if t.contains '\'' && !t.contains '"' then '"' else '\''

/-- How one character is written between two `quote`s. -/
def escape (quote c : Char) : Text :=
  if c = quote ∨ c = '\\' then ['\\', c]
  else if c = '\n' then ['\\', 'n']
  else if c = '\r' then ['\\', 'r']
  else if c = '\t' then ['\\', 't']
  else if isPrintable c then [c]
  else if c.toNat < 0x100 then '\\' :: 'x' :: Text.hex 2 c.toNat
  else if c.toNat < 0x10000 then '\\' :: 'u' :: Text.hex 4 c.toNat
  else '\\' :: 'U' :: Text.hex 8 c.toNat

end Quoted

/-- The text in quotes. -/
def Text.quoted (t : Text) : Text :=
  let quote := Quoted.mark t
  quote :: t.flatMap (Quoted.escape quote) ++ [quote]

end IncludeTrace
