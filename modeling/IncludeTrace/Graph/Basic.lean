import IncludeTrace.Log
import IncludeTrace.Path.Key

/-!
# Include graphs

A **graph** holds one item per file. An item has the key of its path, the spelling it was first named
by, and the keys of the files it includes in the order in which their inclusion was seen; the same
file may stand there several times. Items keep the order in which they were made.

Graphs only grow: `Graph.ensure` puts a new item behind the others unless its key is there already,
and `Graph.addInclude` puts one more key behind the includes of an item.
-/

namespace IncludeTrace

/-- One file of a graph. -/
structure Item where
  key : Text
  path : Text
  includes : List Text
  deriving DecidableEq

/-- The last part of the path of an item. -/
def Item.label (i : Item) : Text := Path.label i.path

/-- An **include graph**: items in the order in which they were made. -/
structure Graph where
  items : List Item
  deriving DecidableEq

namespace Graph

/-- The graph without items. -/
def empty : Graph := ⟨[]⟩

/-- The keys of the items, in order. -/
def keys (g : Graph) : List Text := g.items.map Item.key

/-- The item with a key. -/
def find? (g : Graph) (key : Text) : Option Item := g.items.find? fun i => i.key = key

/-- Whether an item has the key. -/
def has (g : Graph) (key : Text) : Bool := (g.find? key).isSome

/-- The graph with an item for `path`, which is added if there is none with its key. -/
def ensure (cwd path : Text) (g : Graph) : Graph :=
  let key := Path.key cwd path
  if g.has key then g else ⟨g.items ++ [⟨key, Path.shown cwd path, []⟩]⟩

/-- What `ensure` has to say. -/
def ensureLog (cwd path : Text) (g : Graph) : List Entry :=
  let key := Path.key cwd path
  if g.has key then [] else [⟨.debug, "Created graph item " ++ key⟩]

/-- Lets the item with key `parent` include `child` once more. -/
def addInclude (parent child : Text) (g : Graph) : Graph :=
  ⟨g.items.map fun i => if i.key = parent then { i with includes := i.includes ++ [child] } else i⟩

/-- The item that `path` names, if it is there. -/
def item? (cwd path : Text) (g : Graph) : Option Item := g.find? (Path.key cwd path)

/-- The keys that the item with a key includes. -/
def includesOf (g : Graph) (key : Text) : List Text :=
  match g.find? key with
  | some i => i.includes
  | none => []

/-- The spelling under which the item with a key is shown. -/
def pathOf (g : Graph) (key : Text) : Text :=
  match g.find? key with
  | some i => i.path
  | none => key

/-- The number of files. -/
def size (g : Graph) : Nat := g.items.length

/-- The number of includes. -/
def edgeCount (g : Graph) : Nat := g.items.foldr (fun i n => i.includes.length + n) 0

/-- Every key with the keys it includes. -/
def adjacency (g : Graph) : List (Text × List Text) := g.items.map fun i => (i.key, i.includes)

end Graph

end IncludeTrace
