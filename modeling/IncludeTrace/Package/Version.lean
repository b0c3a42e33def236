import IncludeTrace.Text.Blank
import IncludeTrace.Text.Numeral

/-!
# Versions of packages

A version is a release number with optional marks around it: an epoch before it, and after it a
pre-release, post-release, development and local mark. `Spelling.ofText?` reads one, in any case and
with blanks around it; separators between the parts may be left out, and so may the numbers of marks.
`Spelling.version` is the version itself, in which it no longer matters how the numbers were written.

Versions are ordered by epoch, release without the zeros it ends in, pre-release, post-release,
development and local mark. A development version comes before everything it leads up to, a pre-release
before the release, a post-release after it; a local mark only breaks ties.
-/

namespace IncludeTrace

/-- The kinds of pre-release, earliest first. -/
inductive PreKind
  | alpha
  | beta
  | candidate
  deriving DecidableEq

/-- A part of a local mark. -/
inductive LocalPart
  | word (t : Text)
  | number (n : Nat)
  deriving DecidableEq

/-- A **version**. -/
structure Version where
  epoch : Nat
  release : List Nat
  pre : Option (PreKind × Nat)
  post : Option Nat
  dev : Option Nat
  mark : Option (List LocalPart)
  deriving DecidableEq

/-- How a version is **spelled**: its parts, with the digits of every number as they stand. A number
that is left out has no digits. -/
structure Spelling where
  epoch : Text
  release : List Text
  pre : Option (PreKind × Text)
  post : Option Text
  dev : Option Text
  mark : Option (List Text)
  deriving DecidableEq

namespace Spelling

/-- The ASCII digits a text begins with, and what follows. -/
def spanDigits (t : Text) : Text × Text := (t.takeWhile Char.isDigit, t.dropWhile Char.isDigit)

/-- Whether a character separates the parts of a version. -/
def isSeparator (c : Char) : Bool := c = '-' || c = '_' || c = '.'

/-- What follows the separator a text may begin with. -/
def dropSeparator : Text → Text
  | c :: t => if isSeparator c then t else c :: t
  | [] => []

/-- The further numbers of a release, each behind a point, and what follows. -/
def moreRelease (t : Text) : List Text × Text :=
  match t with
  | '.' :: rest =>
    let ds := rest.takeWhile Char.isDigit
    if ds.isEmpty then ([], '.' :: rest)
    else
      let (ns, after) := moreRelease (rest.dropWhile Char.isDigit)
      (ds :: ns, after)
  | t => ([], t)
termination_by t.length
decreasing_by
  have := (List.dropWhile_suffix (l := rest) Char.isDigit).length_le
  simp
  omega

/-- The epoch, if there is one, and what follows. -/
def readEpoch (t : Text) : Text × Text :=
  match spanDigits t with
  | (d :: ds, '!' :: rest) => (d :: ds, rest)
  | _ => ([], t)

/-- The release and what follows. -/
def readRelease (t : Text) : Option (List Text × Text) :=
  match spanDigits t with
  | ([], _) => none
  | (ds, rest) =>
    let (ns, after) := moreRelease rest
    some (ds :: ns, after)

/-- A mark with one of the given labels: what the label stands for, the number behind it and what
follows. The first label that fits counts. -/
def readMark {α : Type} (labels : List (Text × α)) (t : Text) : Option (α × Text × Text) :=
  let t := dropSeparator t
  (labels.find? fun l => l.1.isPrefixOf t).map fun l =>
    let (ds, rest) := spanDigits (dropSeparator (t.drop l.1.length))
    (l.2, ds, rest)

/-- The labels of pre-releases. -/
def preLabels : List (Text × PreKind) :=
  [("alpha", .alpha), ("a", .alpha), ("beta", .beta), ("b", .beta), ("preview", .candidate),
    ("pre", .candidate), ("c", .candidate), ("rc", .candidate)]

/-- The labels of post-releases. -/
def postLabels : List (Text × Unit) := [("post", ()), ("rev", ()), ("r", ())]

/-- The label of development versions. -/
def devLabels : List (Text × Unit) := [("dev", ())]

/-- A pre-release mark, if there is one, and what follows. -/
def readPre (t : Text) : Option (PreKind × Text) × Text :=
  match readMark preLabels t with
  | some (kind, ds, rest) => (some (kind, ds), rest)
  | none => (none, t)

/-- A mark of one kind, if there is one, and what follows. -/
def readPlain (labels : List (Text × Unit)) (t : Text) : Option Text × Text :=
  match readMark labels t with
  | some ((), ds, rest) => (some ds, rest)
  | none => (none, t)

/-- A post-release mark, if there is one, and what follows. A number behind a dash is one. -/
def readPost (t : Text) : Option Text × Text :=
  match t with
  | '-' :: d :: rest =>
    if d.isDigit then
      let (ds, after) := spanDigits (d :: rest)
      (some ds, after)
    else readPlain postLabels t
  | _ => readPlain postLabels t

/-- The local mark that a text consists of, in parts; nothing at all is no mark. -/
def readLocal : Text → Option (Option (List Text))
  | [] => some none
  | '+' :: t =>
    let parts := Text.pieces '.' (t.map fun c => if isSeparator c then '.' else c)
    if parts.all fun part => !part.isEmpty && part.all Char.isAlphanum then some (some parts)
    else none
  | _ => none

/-- The spelling of the version that a text writes. -/
def ofText? (t : Text) : Option Spelling := do
  let t : Text := (Text.trim t).map Char.toLower
  let t := match t with
    | 'v' :: rest => rest
    | t => t
  let (epoch, t) := readEpoch t
  let (release, t) ← readRelease t
  let (pre, t) := readPre t
  let (post, t) := readPost t
  let (dev, t) := readPlain devLabels t
  let mark ← readLocal t
  return ⟨epoch, release, pre, post, dev, mark⟩

/-- The digits of all numbers, in the order in which they are read. -/
def numerals (s : Spelling) : List Text :=
  s.epoch :: s.release ++ (s.pre.map Prod.snd).toList ++ s.post.toList ++ s.dev.toList ++
    (s.mark.getD []).filter fun part => part.all Char.isDigit

/-- A part of a local mark. -/
def localPart (part : Text) : LocalPart :=
  if part.all Char.isDigit then .number (Numeral.ofDigits part) else .word part

/-- The version that is spelled. -/
def version (s : Spelling) : Version where
  epoch := Numeral.ofDigits s.epoch
  release := s.release.map Numeral.ofDigits
  pre := s.pre.map fun p => (p.1, Numeral.ofDigits p.2)
  post := s.post.map Numeral.ofDigits
  dev := s.dev.map Numeral.ofDigits
  mark := s.mark.map (List.map localPart)

end Spelling

namespace Version

/-- The version that a text writes. -/
def ofText? (t : Text) : Option Version := (Spelling.ofText? t).map Spelling.version

/-! ### Order -/

/-- The order of lists by the first place at which they differ; a beginning comes before the whole. -/
def compareLists {α : Type} (cmp : α → α → Ordering) : List α → List α → Ordering
  | [], [] => .eq
  | [], _ :: _ => .lt
  | _ :: _, [] => .gt
  | a :: as, b :: bs => (cmp a b).then (compareLists cmp as bs)

/-- The order of natural numbers. -/
def compareNats (a b : Nat) : Ordering := compare a b

/-- The order of parts of local marks: words come before numbers. -/
def compareParts : LocalPart → LocalPart → Ordering
  | .word a, .word b => compareLists compareNats (a.map Char.toNat) (b.map Char.toNat)
  | .word _, .number _ => .lt
  | .number _, .word _ => .gt
  | .number a, .number b => compareNats a b

/-- The order of local marks: none comes first. -/
def compareMarks : Option (List LocalPart) → Option (List LocalPart) → Ordering
  | none, none => .eq
  | none, some _ => .lt
  | some _, none => .gt
  | some a, some b => compareLists compareParts a b

/-- A release without the zeros it ends in. -/
def significant (release : List Nat) : List Nat := (release.reverse.dropWhile (· = 0)).reverse

/-- The place of the marks of a version in the order, as numbers to be compared one after another. -/
def rank (v : Version) : List Nat :=
  let pre := match v.pre, v.post, v.dev with
    | some (.alpha, n), _, _ => [1, n]
    | some (.beta, n), _, _ => [2, n]
    | some (.candidate, n), _, _ => [3, n]
    | none, none, some _ => [0, 0]
    | none, _, _ => [4, 0]
  let post := match v.post with
    | none => 0
    | some n => n + 1
  let dev := match v.dev with
    | none => [1, 0]
    | some n => [0, n]
  pre ++ post :: dev

/-- The order of versions. -/
def compare (a b : Version) : Ordering :=
  (compareNats a.epoch b.epoch).then <|
    (compareLists compareNats (significant a.release) (significant b.release)).then <|
      (compareLists compareNats a.rank b.rank).then (compareMarks a.mark b.mark)

/-- Whether `v` is `minimum` or a later version. -/
def atLeast (v minimum : Version) : Bool := v.compare minimum ≠ .lt

end Version

end IncludeTrace
