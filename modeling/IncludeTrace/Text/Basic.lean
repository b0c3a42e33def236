/-!
# Texts

A **text** is a list of characters. Everything the library reads or writes (paths, transcripts,
messages, exported files) is a text, so that functions on it are plain recursion on lists. String
literals stand for texts wherever one is expected.

The operations here are the ones the rest of the library shares: tests for both ends, the first
occurrence of a separator (`Text.cut?`), the pieces between separators (`Text.pieces`) and decimal
numerals.
-/

namespace IncludeTrace

/-- A **text** is its sequence of characters. -/
abbrev Text := List Char

instance : Coe String Text := ⟨String.toList⟩

namespace Text

/-- Whether `t` begins with `p`. -/
def startsWith (t p : Text) : Bool := p.isPrefixOf t

/-- Whether `t` ends with `p`. -/
def endsWith (t p : Text) : Bool := p.isSuffixOf t

/-- The text on both sides of the first occurrence of `separator`, if there is one. The empty
separator occurs at the very beginning. -/
def cut? (separator : Text) : Text → Option (Text × Text)
  | [] => if separator.isEmpty then some ([], []) else none
  | c :: t =>
    if separator.isPrefixOf (c :: t) then some ([], (c :: t).drop separator.length)
    else (cut? separator t).map fun parts => (c :: parts.1, parts.2)

/-- The pieces of a text between the occurrences of `separator`; there is always at least one. -/
def pieces (separator : Char) : Text → List Text
  | [] => [[]]
  | c :: t =>
    if c = separator then [] :: pieces separator t
    else match pieces separator t with
      | [] => [[c]]
      | p :: ps => (c :: p) :: ps

/-- The part of a text behind the last occurrence of `separator`; all of it if there is none. -/
def afterLast (separator : Char) (t : Text) : Text :=
  (t.reverse.takeWhile (· ≠ separator)).reverse

/-- The part of a text up to and including the last occurrence of `separator`. -/
def throughLast (separator : Char) (t : Text) : Text :=
  (t.reverse.dropWhile (· ≠ separator)).reverse

/-- The texts in order with `separator` between neighbours. -/
def join (separator : Text) (ts : List Text) : Text := separator.intercalate ts

/-- The decimal numeral of a natural number. -/
def ofNat (n : Nat) : Text := Nat.toDigits 10 n

/-- The decimal numeral of an integer. -/
def ofInt : Int → Text
  | .ofNat n => ofNat n
  | .negSucc n => '-' :: ofNat (n + 1)

/-- The hexadecimal numeral of `n`, filled up with zeros to at least `width` digits. -/
def hex (width n : Nat) : Text :=
  let digits := Nat.toDigits 16 n
  List.replicate (width - digits.length) '0' ++ digits

/-- `n` copies of a text, one after another. -/
def times (n : Nat) (t : Text) : Text := (List.replicate n t).flatten

end Text

end IncludeTrace
