import IncludeTrace.Text.Ranges

/-!
# Blanks

A **blank** is a character that Unicode counts as white space, or one of the four ASCII information
separators.
-/

namespace IncludeTrace

/-- The blanks. -/
def blankRanges : Ranges :=
  [(0x9, 0xD), (0x1C, 0x20), (0x85, 0x85), (0xA0, 0xA0), (0x1680, 0x1680), (0x2000, 0x200A),
   (0x2028, 0x2029), (0x202F, 0x202F), (0x205F, 0x205F), (0x3000, 0x3000)]

/-- Whether a character is a blank. -/
def isBlank (c : Char) : Bool := blankRanges.has c.toNat

/-- The text without the blanks it ends in. -/
def Text.trimEnd (t : Text) : Text := (t.reverse.dropWhile isBlank).reverse

/-- The text without the blanks at both ends. -/
def Text.trim (t : Text) : Text := Text.trimEnd (t.dropWhile isBlank)

end IncludeTrace
