import IncludeTrace.Text.Quoted

/-!
# Letters

JSON documents can write a character above U+FFFF as two escapes, one for each **half** of it, and
nothing keeps them from writing one half alone. So what stands between the quotes of a document is a
sequence of **letters**: characters, and halves without their other half. Halves do not occur in
texts; a text is a sequence of letters all of which are characters.

A first half with its second half right behind it is read as one character. Where a text is wanted, as
for a path, `Letters.toText` lets every half be stood for by a character of its own; messages show a
half by its number (`Letters.quoted`).
-/

namespace IncludeTrace

/-- A letter: a character, or one of the halves that begin at U+D800. -/
inductive Letter
  | char (c : Char)
  | half (offset : Fin 0x800)
  deriving DecidableEq

namespace Letter

/-- The letter of a unit of sixteen bits. -/
def ofUnit (n : Nat) : Letter :=
  if h : 0xD800 ≤ n ∧ n < 0xD800 + 0x800 then .half ⟨n - 0xD800, by omega⟩ else .char (Char.ofNat n)

/-- The number of a half. -/
def halfUnit (offset : Fin 0x800) : Nat := 0xD800 + offset

/-- The character that takes the place of a letter in a text: of a half, the private one 0x100000 above
it. -/
def toChar : Letter → Char
  | char c => c
  | half offset => Char.ofNat (0x100000 + halfUnit offset)

end Letter

/-- What stands between the quotes of a document. -/
abbrev Letters := List Letter

namespace Letters

/-- The letters of a text. -/
def ofText (t : Text) : Letters := t.map .char

instance : Coe Text Letters := ⟨ofText⟩

/-- The letters as a text, in which every half has its place taken by a character of its own. -/
def toText (ls : Letters) : Text := ls.map Letter.toChar

/-- A text stays as it is. -/
@[simp] theorem toText_ofText (t : Text) : (ofText t).toText = t := by
  simp [ofText, toText, Function.comp_def, Letter.toChar]

/-- The characters among the letters. -/
def chars (ls : Letters) : Text :=
  ls.filterMap fun
    | .char c => some c
    | .half _ => none

/-- How one letter is written between two `quote`s; a half is never printable. -/
def escape (quote : Char) : Letter → Text
  | .char c => Quoted.escape quote c
  | .half offset => '\\' :: 'u' :: Text.hex 4 (Letter.halfUnit offset)

/-- The letters in quotes, as messages show them. -/
def quoted (ls : Letters) : Text :=
  let quote := Quoted.mark ls.chars
  quote :: ls.flatMap (escape quote) ++ [quote]

@[simp] theorem chars_ofText (t : Text) : (ofText t).chars = t :=
  List.filterMap_map.trans List.filterMap_some

end Letters

end IncludeTrace
