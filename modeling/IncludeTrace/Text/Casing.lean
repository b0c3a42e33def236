import IncludeTrace.Text.Casing.Table

/-!
# Lower case

`Text.lower` is the full lower-case mapping of Unicode 14 without language-specific rules. All
characters map on their own but two: the dotted capital I becomes an `i` with a combining dot, and a
capital sigma takes its **final** form when a cased character stands before it and none behind it,
where characters that casing looks through do not count.
-/

namespace IncludeTrace

namespace Casing

/-- Whether a character has case and casing does not look through it. -/
def isCased (c : Char) : Bool :=
  if c.toNat < 128 then c.isAlpha else casedRanges.has c.toNat

/-- Whether casing looks through a character. -/
def isIgnorable (c : Char) : Bool := ignorableRanges.has c.toNat

/-- The code point that `n` becomes in lower case, read off the runs. -/
def target (n : Nat) : List Run → Nat
  | [] => n
  | run :: rest =>
    if n < run.first then n
    else if n ≤ run.last then
      if (n - run.first) % run.stride = 0 then run.target + (n - run.first) else n
    else target n rest

/-- The lower-case form of a single character, dotted capital I and final sigma aside. -/
def lowerChar (c : Char) : Char :=
  if c.toNat < 128 then
    if 'A' ≤ c ∧ c ≤ 'Z' then Char.ofNat (c.toNat + 32) else c
  else Char.ofNat (target c.toNat runs)

/-- Whether the next character that casing does not look through has case. -/
def wordGoesOn : Text → Bool
  | [] => false
  | c :: t => if isIgnorable c then wordGoesOn t else isCased c

/-- Lower case from the middle of a text: `inWord` says whether the last character that casing does
not look through had case. -/
def lowerFrom (inWord : Bool) : Text → Text
  | [] => []
  | c :: t =>
    let inWord' := if isIgnorable c then inWord else isCased c
    if c = 'İ' then 'i' :: '\u0307' :: lowerFrom inWord' t
    else if c = 'Σ' then (if inWord && !wordGoesOn t then 'ς' else 'σ') :: lowerFrom inWord' t
    else lowerChar c :: lowerFrom inWord' t

end Casing

/-- The text in **lower case**. -/
def Text.lower (t : Text) : Text := Casing.lowerFrom false t

end IncludeTrace
