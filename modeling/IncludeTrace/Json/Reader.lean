import IncludeTrace.Json.Basic
import IncludeTrace.Text.Numeral

/-!
# Reading JSON

`Json.read` reads a document. The language is JSON with two additions: the names of the special
doubles are numbers. A member that is given twice keeps its first place and its last value.

Lists and objects can be nested only so deep, and whole numbers have only so many digits; the `Limits`
of a reader say how many. `room` is the number of levels that may still be opened.

A fault says what is wrong and what of the document was left at that point, from which its place can
be counted. Reading ends because the readers of values, elements and members call one another at most
twice for every character they take; so twice the number of characters, and two more for the calls at
the end, is enough fuel.
-/

namespace IncludeTrace.Json

/-- What is wrong with a document. -/
inductive Cause
  | value
  | comma
  | colon
  | name
  | extraData
  | openText
  | escape
  | unicodeEscape
  | control
  | byteOrderMark
  | longNumeral (digits : Nat)
  | tooDeep (inList : Bool)
  deriving DecidableEq

/-- A fault, with the rest of the document from the place where it lies. -/
structure Fault where
  cause : Cause
  rest : Text
  deriving DecidableEq

/-- What a reader puts up with: how deep lists and objects may be nested and, unless their number does
not matter, how many digits a whole number may have. -/
structure Limits where
  depth : Nat
  digits : Option Nat

/-- Whether a limit on digits refuses a numeral. -/
def refuses (most : Option Nat) (numeral : Text) : Bool := most.any (· < numeral.length)

/-! ### Letters -/

/-- The value of a hexadecimal digit. -/
def hexValue? (c : Char) : Option Nat :=
  if '0' ≤ c ∧ c ≤ '9' then some (c.toNat - 48)
  else if 'a' ≤ c ∧ c ≤ 'f' then some (c.toNat - 87)
  else if 'A' ≤ c ∧ c ≤ 'F' then some (c.toNat - 55)
  else none

/-- The unit that four hexadecimal digits write. -/
def unit? (a b c d : Char) : Option Nat := do
  return ((((← hexValue? a) * 16 + (← hexValue? b)) * 16) + (← hexValue? c)) * 16 + (← hexValue? d)

/-- The second half of a character that needs two units, if it follows as an escape. -/
def lowUnit? : Text → Option Nat
  | '\\' :: 'u' :: a :: b :: c :: d :: _ :: _ => do
    let n ← unit? a b c d
    if 0xDC00 ≤ n ∧ n ≤ 0xDFFF then some n else none
  | _ => none

/-- What follows a backslash: the letter it stands for and how many characters that took. -/
def escaped (opening : Text) : Text → Except Fault (Letter × Nat)
  | [] => .error ⟨.openText, opening⟩
  | 'u' :: a :: b :: c :: d :: next :: rest =>
    match unit? a b c d with
    | none => .error ⟨.unicodeEscape, 'u' :: a :: b :: c :: d :: next :: rest⟩
    | some n =>
      match (if 0xD800 ≤ n ∧ n ≤ 0xDBFF then lowUnit? (next :: rest) else none) with
      | some low => .ok (.char (Char.ofNat (0x10000 + (n - 0xD800) * 0x400 + (low - 0xDC00))), 11)
      | none => .ok (.ofUnit n, 5)
  | 'u' :: rest => .error ⟨.unicodeEscape, 'u' :: rest⟩
  | '"' :: _ => .ok (.char '"', 1)
  | '\\' :: _ => .ok (.char '\\', 1)
  | '/' :: _ => .ok (.char '/', 1)
  | 'b' :: _ => .ok (.char '\x08', 1)
  | 'f' :: _ => .ok (.char '\x0c', 1)
  | 'n' :: _ => .ok (.char '\n', 1)
  | 'r' :: _ => .ok (.char '\r', 1)
  | 't' :: _ => .ok (.char '\t', 1)
  | c :: rest => .error ⟨.escape, '\\' :: c :: rest⟩

/-- The letters up to a closing quote, and what follows; `opening` begins at the opening quote. -/
def readLetters (opening : Text) : Text → Except Fault (Letters × Text)
  | [] => .error ⟨.openText, opening⟩
  | c :: rest =>
    if c = '"' then .ok ([], rest)
    else if c = '\\' then
      match escaped opening rest with
      | .error fault => .error fault
      | .ok (l, width) => (readLetters opening (rest.drop width)).map fun r => (l :: r.1, r.2)
    else if c.toNat < 0x20 then .error ⟨.control, c :: rest⟩
    else (readLetters opening rest).map fun r => (.char c :: r.1, r.2)
termination_by t => t.length
decreasing_by all_goals simp; try omega

/-! ### Numbers -/

/-- The ASCII digits a text begins with, and what follows. -/
def spanDigits (t : Text) : Text × Text := (t.takeWhile Char.isDigit, t.dropWhile Char.isDigit)

/-- The whole part of a number without its sign: `0`, or digits that do not begin with it. -/
def spanWhole : Text → Option (Text × Text)
  | '0' :: rest => some (['0'], rest)
  | c :: rest => if c.isDigit then some (spanDigits (c :: rest)) else none
  | [] => none

/-- The digits of a fractional part, if a point with at least one digit follows. -/
def spanFraction : Text → Text × Text
  | '.' :: rest =>
    match spanDigits rest with
    | ([], _) => ([], '.' :: rest)
    | found => found
  | t => ([], t)

/-- The exponent, if a mark with at least one digit follows. -/
def spanExponent : Text → Option (Int × Text)
  | c :: rest =>
    if c = 'e' ∨ c = 'E' then
      let (negative, digits) := match rest with
        | '-' :: ds => (true, ds)
        | '+' :: ds => (false, ds)
        | ds => (false, ds)
      match spanDigits digits with
      | ([], _) => none
      | (ds, after) =>
        let n : Int := Numeral.ofDigits ds
        some (if negative then -n else n, after)
    else none
  | [] => none

/-- A number behind its sign, where `most` limits the digits of whole ones; `start` begins at the
sign. -/
def readNumber (most : Option Nat) (start : Text) (negative : Bool) (t : Text) :
    Except Fault (Json × Text) :=
  match spanWhole t with
  | none => .error ⟨.value, start⟩
  | some (whole, t) =>
    let (fraction, t) := spanFraction t
    match fraction, spanExponent t with
    | [], none =>
      if refuses most whole then .error ⟨.longNumeral whole.length, start⟩
      else
        let n : Int := Numeral.ofDigits whole
        .ok (int (if negative then -n else n), t)
    | _, exponent =>
      let (e, t) := exponent.getD (0, t)
      .ok (.number (.double
        (.ofDecimal negative (Numeral.ofDigits (whole ++ fraction)) (e - fraction.length))), t)

/-! ### Values -/

/-- What follows the blanks a text begins with. -/
def skipBlanks (t : Text) : Text :=
  t.dropWhile fun c => c = ' ' || c = '\t' || c = '\n' || c = '\r'

/-- The words that are values, with what they stand for. -/
def words : List (Text × Json) :=
  [("null", .null), ("true", .bool true), ("false", .bool false),
    ("NaN", .number (.double .notANumber)), ("Infinity", .number (.double (.infinite false))),
    ("-Infinity", .number (.double (.infinite true)))]

/-- The word a text begins with, and what follows. -/
def readWord? (t : Text) : Option (Json × Text) :=
  (words.find? fun w => w.1.isPrefixOf t).map fun w => (w.2, t.drop w.1.length)

mutual

/-- A value at the beginning of a text, and what follows. -/
def readValue (most : Option Nat) : Nat → Nat → Text → Except Fault (Json × Text)
  | 0, _, t => .error ⟨.value, t⟩
  | fuel + 1, room, t =>
    match t, room with
    | '"' :: rest, _ => (readLetters ('"' :: rest) rest).map fun r => (.string r.1, r.2)
    | '[' :: rest, 0 => .error ⟨.tooDeep true, '[' :: rest⟩
    | '[' :: rest, room + 1 =>
      match skipBlanks rest with
      | ']' :: after => .ok (.list [], after)
      | start => (readElements most fuel room start).map fun r => (.list r.1, r.2)
    | '\x7b' :: rest, 0 => .error ⟨.tooDeep false, '\x7b' :: rest⟩
    | '\x7b' :: rest, room + 1 =>
      match skipBlanks rest with
      | '\x7d' :: after => .ok (.object [], after)
      | start => (readMembers most fuel room start).map fun r => (.object (Table.ofPairs r.1), r.2)
    | t, _ =>
      match readWord? t with
      | some found => .ok found
      | none =>
        match t with
        | '-' :: rest => readNumber most t true rest
        | _ => readNumber most t false t

/-- The elements of a list up to its closing bracket, and what follows. -/
def readElements (most : Option Nat) : Nat → Nat → Text → Except Fault (List Json × Text)
  | 0, _, t => .error ⟨.value, t⟩
  | fuel + 1, room, t => do
    let (v, t) ← readValue most fuel room t
    match skipBlanks t with
    | ']' :: rest => return ([v], rest)
    | ',' :: rest =>
      let (vs, t) ← readElements most fuel room (skipBlanks rest)
      return (v :: vs, t)
    | rest => throw ⟨.comma, rest⟩

/-- The members of an object up to its closing brace, and what follows. -/
def readMembers (most : Option Nat) :
    Nat → Nat → Text → Except Fault (List (Letters × Json) × Text)
  | 0, _, t => .error ⟨.name, t⟩
  | fuel + 1, room, t =>
    match t with
    | '"' :: rest => do
      let (name, t) ← readLetters t rest
      match skipBlanks t with
      | ':' :: rest =>
        let (v, t) ← readValue most fuel room (skipBlanks rest)
        match skipBlanks t with
        | '\x7d' :: rest => return ([(name, v)], rest)
        | ',' :: rest =>
          let (vs, t) ← readMembers most fuel room (skipBlanks rest)
          return ((name, v) :: vs, t)
        | rest => throw ⟨.comma, rest⟩
      | rest => throw ⟨.colon, rest⟩
    | t => .error ⟨.name, t⟩

end

/-- The value a document holds, for a reader with limits. -/
def readUnder (limits : Limits) (document : Text) : Except Fault Json := do
  if document.startsWith ['\uFEFF'] then throw ⟨.byteOrderMark, document⟩
  let (v, rest) ←
    readValue limits.digits (2 * document.length + 2) limits.depth (skipBlanks document)
  match skipBlanks rest with
  | [] => return v
  | extra => throw ⟨.extraData, extra⟩

/-- The value a document holds, where lists and objects are nested at most `room` deep. -/
def readWithin (room : Nat) (document : Text) : Except Fault Json :=
  readUnder ⟨room, some Numeral.maxDigits⟩ document

/-- How deep lists and objects may be nested in a document. -/
def maxDepth : Nat := 988

/-- The value a document holds. -/
def read (document : Text) : Except Fault Json := readWithin maxDepth document

/-! ### Faults in words -/

/-- What is wrong, in words. -/
def Cause.message : Cause → Text
  | .value => "Expecting value"
  | .comma => "Expecting ',' delimiter"
  | .colon => "Expecting ':' delimiter"
  | .name => "Expecting property name enclosed in double quotes"
  | .extraData => "Extra data"
  | .openText => "Unterminated string starting at"
  | .escape => "Invalid \\escape"
  | .unicodeEscape => "Invalid \\uXXXX escape"
  | .control => "Invalid control character at"
  | .byteOrderMark => "Unexpected UTF-8 BOM (decode using utf-8-sig)"
  | .longNumeral digits => Numeral.tooLongMessage digits
  | .tooDeep inList =>
    "maximum recursion depth exceeded while decoding a JSON " ++
      (if inList then "array" else "object") ++ " from a unicode string"

/-- The sentence that reports a fault in a document: what, and in which line and column. -/
def Fault.message (document : Text) (f : Fault) : Text :=
  let before : Text := document.take (document.length - f.rest.length)
  match f.cause with
  | .longNumeral _ | .tooDeep _ => f.cause.message
  | _ =>
    f.cause.message ++ ": line " ++ Text.ofNat (before.count '\n' + 1) ++ " column " ++
      Text.ofNat ((before.afterLast '\n').length + 1) ++ " (char " ++ Text.ofNat before.length ++ ")"

end IncludeTrace.Json
