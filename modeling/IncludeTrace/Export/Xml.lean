import IncludeTrace.Text.Basic

/-!
# XML documents

A document is a tree of elements. An element holds either a text or further elements; one that holds
nothing is written as a single tag. Elements inside elements stand on lines of their own, two spaces
further in.
-/

namespace IncludeTrace.Xml

/-- An element: a text between its tags, or elements. -/
inductive Element
  | leaf (tag : Text) (attributes : List (Text × Text)) (text : Text)
  | branch (tag : Text) (attributes : List (Text × Text)) (children : List Element)

/-- How a character stands in a text. -/
def escapeText (c : Char) : Text :=
  match c with
  | '&' => "&amp;"
  | '<' => "&lt;"
  | '>' => "&gt;"
  | c => [c]

/-- How a character stands in the value of an attribute. -/
def escapeAttribute (c : Char) : Text :=
  match c with
  | '&' => "&amp;"
  | '<' => "&lt;"
  | '>' => "&gt;"
  | '"' => "&quot;"
  | '\r' => "&#13;"
  | '\n' => "&#10;"
  | '\t' => "&#09;"
  | c => [c]

/-- An attribute with the space before it. -/
def attributeText (a : Text × Text) : Text :=
  ' ' :: a.1 ++ '=' :: '"' :: a.2.flatMap escapeAttribute ++ ['"']

/-- The beginning of a tag: its name and attributes. -/
def openingText (tag : Text) (attributes : List (Text × Text)) : Text :=
  '<' :: tag ++ attributes.flatMap attributeText

/-- The closing tag. -/
def closingText (tag : Text) : Text := '<' :: '/' :: tag ++ ['>']

/-- The beginning of a new line at a level. -/
def newLine (level : Nat) : Text := '\n' :: List.replicate (2 * level) ' '

mutual

/-- An element at a level of indentation. -/
def Element.renderAt (level : Nat) : Element → Text
  | .leaf tag attributes [] => openingText tag attributes ++ " />"
  | .leaf tag attributes text =>
    openingText tag attributes ++ '>' :: text.flatMap escapeText ++ closingText tag
  | .branch tag attributes [] => openingText tag attributes ++ " />"
  | .branch tag attributes (child :: children) =>
    openingText tag attributes ++ '>' :: newLine (level + 1) ++ child.renderAt (level + 1) ++
      renderRest (level + 1) children ++ newLine level ++ closingText tag

/-- Elements on lines of their own. -/
def renderRest (level : Nat) : List Element → Text
  | [] => []
  | e :: es => newLine level ++ e.renderAt level ++ renderRest level es

end

/-- The document with an element at its root. -/
def document (e : Element) : Text :=
  "<?xml version='1.0' encoding='utf-8'?>\n" ++ e.renderAt 0 ++ ['\n']

end IncludeTrace.Xml
