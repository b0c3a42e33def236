import IncludeTrace.Json.Basic

/-!
# Writing JSON

`Json.render` writes a value on one line, `Json.renderIndented` with one element or member a line,
two spaces for every level. Both use ASCII characters only: all others are escaped, as pairs of units
where one unit does not suffice.
-/

namespace IncludeTrace.Json

/-- How one character stands between quotes. -/
def escapeChar (c : Char) : Text :=
  if c = '"' then ['\\', '"']
  else if c = '\\' then ['\\', '\\']
  else if c = '\n' then ['\\', 'n']
  else if c = '\r' then ['\\', 'r']
  else if c = '\t' then ['\\', 't']
  else if c = '\x0c' then ['\\', 'f']
  else if c = '\x08' then ['\\', 'b']
  else if 0x20 ≤ c.toNat ∧ c.toNat ≤ 0x7E then [c]
  else if c.toNat < 0x10000 then '\\' :: 'u' :: Text.hex 4 c.toNat
  else
    let n := c.toNat - 0x10000
    '\\' :: 'u' :: Text.hex 4 (0xD800 + n / 0x400) ++
      '\\' :: 'u' :: Text.hex 4 (0xDC00 + n % 0x400)

/-- How one letter stands between quotes. -/
def escapeLetter : Letter → Text
  | .char c => escapeChar c
  | .half offset => '\\' :: 'u' :: Text.hex 4 (Letter.halfUnit offset)

/-- Letters between quotes. -/
def quote (ls : Letters) : Text := '"' :: ls.flatMap escapeLetter ++ ['"']

/-- A number; the special doubles go by their names. -/
def numberText : Number → Text
  | .double .notANumber => "NaN"
  | .double (.infinite negative) => if negative then "-Infinity" else "Infinity"
  | n => n.text

/-- A value that has no parts. -/
def atomText : Json → Text
  | null => "null"
  | bool b => if b then "true" else "false"
  | number n => numberText n
  | string letters => quote letters
  | list _ => "[]"
  | object _ => "\x7b\x7d"

mutual

/-- The value on one line. -/
def render : Json → Text
  | list (v :: vs) => '[' :: render v ++ renderRest vs
  | object ((name, v) :: ms) => '\x7b' :: quote name ++ ':' :: ' ' :: render v ++ renderMembers ms
  | v => atomText v

/-- The further elements of a list and its end. -/
def renderRest : List Json → Text
  | [] => [']']
  | v :: vs => ',' :: ' ' :: render v ++ renderRest vs

/-- The further members of an object and its end. -/
def renderMembers : List (Letters × Json) → Text
  | [] => ['\x7d']
  | (name, v) :: ms => ',' :: ' ' :: quote name ++ ':' :: ' ' :: render v ++ renderMembers ms

end

/-- The beginning of a new line at a level. -/
def newLine (level : Nat) : Text := '\n' :: List.replicate (2 * level) ' '

mutual

/-- The value over several lines, at a level of indentation. -/
def renderAt (level : Nat) : Json → Text
  | list (v :: vs) => '[' :: newLine (level + 1) ++ renderAt (level + 1) v ++ restAt level vs
  | object ((name, v) :: ms) =>
    '\x7b' :: newLine (level + 1) ++ quote name ++ ':' :: ' ' :: renderAt (level + 1) v ++
      membersAt level ms
  | v => atomText v

/-- The further elements of a list and its end. -/
def restAt (level : Nat) : List Json → Text
  | [] => newLine level ++ [']']
  | v :: vs => ',' :: newLine (level + 1) ++ renderAt (level + 1) v ++ restAt level vs

/-- The further members of an object and its end. -/
def membersAt (level : Nat) : List (Letters × Json) → Text
  | [] => newLine level ++ ['\x7d']
  | (name, v) :: ms =>
    ',' :: newLine (level + 1) ++ quote name ++ ':' :: ' ' :: renderAt (level + 1) v ++
      membersAt level ms

end

/-- The value over several lines. -/
def renderIndented (v : Json) : Text := renderAt 0 v

end IncludeTrace.Json
