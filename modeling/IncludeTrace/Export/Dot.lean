import IncludeTrace.Graph.Multigraph
import IncludeTrace.Text.Alphanumeric
import IncludeTrace.Text.Casing

/-!
# DOT

A multigraph as a DOT document: a statement for every node, then one for every edge. A name or value stands
**bare** where DOT reads it as one word, and in quotes otherwise.

A colon in a name separates a **port**. A node statement names the node by what stands before the
first colon; an edge statement names each end by what stands before the last colon and adds the port.
-/

namespace IncludeTrace.Dot

/-! ### Words -/

/-- The words that have a meaning of their own. -/
def keywords : List Text := ["graph", "subgraph", "digraph", "node", "edge", "strict"]

/-- Whether a text is a keyword in any case. -/
def isKeyword (t : Text) : Bool := keywords.contains t.lower

/-- A text without the line feed it may end in. -/
def dropLineFeed (t : Text) : Text := if t.endsWith ['\n'] then t.dropLast else t

/-- Whether a text, a final line feed aside, is a numeral with at most one point. -/
def isNumeral (t : Text) : Bool :=
  match Text.pieces '.' (dropLineFeed t) with
  | [whole] => !whole.isEmpty && whole.all Char.isDigit
  | [whole, fraction] =>
    !(whole.isEmpty && fraction.isEmpty) && whole.all Char.isDigit && fraction.all Char.isDigit
  | _ => false

/-- Whether a text, a final line feed aside, stands between two given characters. -/
def isBetween (first last : Char) (t : Text) : Bool :=
  let t := dropLineFeed t
  2 ≤ t.length && t.head? = some first && t.getLast? = some last

/-- Whether a text stands between double quotes or between angle brackets. -/
def isEnclosed (t : Text) : Bool := isBetween '"' '"' t || isBetween '<' '>' t

/-- Whether a text is bare as any word, or must be quoted, where this can be told. -/
def bare? (t : Text) : Option Bool :=
  if t.isDigits then some true
  else if t.isAlphanumeric then some !Text.isDigits (t.take 1)
  else if isEnclosed t then some true
  else if t.any fun c => c.toNat > 0x7F || c.toNat = 0 then some false
  else if isNumeral t then some true
  else none

/-- Whether a character is a letter of ASCII or an underscore. -/
def isNameStart (c : Char) : Bool := c.isAlpha || c = '_'

/-- Whether a text, a final line feed aside, is a name: letters, digits and underscores, also with
colons and quotes inside and quotes at its end. -/
def isName (t : Text) : Bool :=
  match dropLineFeed t with
  | [] => false
  | c :: rest =>
    isNameStart c && rest.all (fun d => d.isAlphanum || d = '_' || d = ':' || d = '"') &&
      rest.getLast? ≠ some ':'

/-- Whether a text is bare as a name. -/
def isBareName (t : Text) : Bool := (bare? t).getD (isName t)

/-- Whether a text is bare as two names with a colon between them. -/
def isBarePair (t : Text) : Bool :=
  match Text.pieces ':' t with
  | [name, port] => isBareName name && isBareName port
  | _ => false

/-- How one character stands between quotes. -/
def escapeChar (c : Char) : Text :=
  if c = '"' then ['\\', '"'] else if c = '\n' then ['\\', 'n']
  else if c = '\r' then ['\\', 'r'] else [c]

/-- A text in quotes. -/
def quoted (t : Text) : Text := '"' :: t.flatMap escapeChar ++ ['"']

/-- A name as it is written, where the keywords in `allowed` stand bare. Nothing is written for an
empty name. -/
def nameText (allowed : List Text) (t : Text) : Text :=
  if t.isEmpty then t
  else if isKeyword t then if allowed.contains t.lower then t else quoted t
  else if (bare? t).getD (isName t || isBarePair t) then t
  else quoted t

/-- A value as it is written. -/
def valueText (t : Text) : Text :=
  if t.isEmpty || isKeyword t || !(bare? t).getD false then quoted t else t

/-! ### Statements -/

/-- The name under which a node statement declares a key: what stands before the first colon, unless
that is the first or the last character. -/
def declaredName (key : Text) : Text :=
  if key.startsWith ['"'] then key
  else match Text.cut? [':'] key with
    | some (name@(_ :: _), _ :: _) => name
    | _ => key

/-- The end of an edge statement: the name before the last colon and the port behind it. -/
def endText (key : Text) : Text :=
  let name : Text := (Text.throughLast ':' key).dropLast
  let inQuotes : Bool := key.startsWith ['"'] && (key.endsWith ['"'] || name.endsWith ['"'])
  if inQuotes then key
  else if name.isEmpty then nameText [] key
  else nameText [] name ++ ':' :: nameText [] (Text.afterLast ':' key)

/-- Attributes as a statement writes them. -/
def attributesText (attributes : List (Text × Text)) : Text :=
  " [" ++ Text.join ", " (attributes.map fun a => a.1 ++ '=' :: a.2) ++ "];\n"

/-- The statement that declares a node. -/
def nodeText (n : Multigraph.Node) : Text :=
  nameText ["graph", "node", "edge"] (declaredName n.id) ++
    attributesText [("path", valueText n.path), ("label", valueText n.label)]

/-- The statement of an arc. -/
def edgeText (a : Arc) : Text :=
  endText a.source ++ " -> " ++ endText a.target ++
    attributesText [("key", Text.ofNat a.copy), ("order", Text.ofNat a.order)]

/-- The multigraph as a DOT document. -/
def document (m : Multigraph) : Text :=
  "digraph \x7b\n" ++ m.nodes.flatMap nodeText ++ m.groupedArcs.flatMap edgeText ++ "\x7d\n"

end IncludeTrace.Dot
