import IncludeTrace.Proofs.Xml.RoundTrip

/-!
# Looking into XML trees

Whoever reads a document looks into the tree by tags and attributes (`Xml.Node.child?`,
`Xml.Node.attribute?`). Two things are known of what is found there when the tree was written from
elements. Its values are made of characters that the elements carry, so they are allowed if those are
(`Xml.Node.Clean`). And if the line ends of all texts are unified, the same nodes are found, with their
texts unified (`Xml.Node.child?_unified`).
-/

namespace IncludeTrace

namespace Xml

variable {v u : Node} {tag name value : Text} {attributes : List (Text × Text)}

namespace Node

/-- The value of an attribute. -/
def attribute? (v : Node) (name : Text) : Option Text := Table.get? v.attributes name

/-- The children with a tag. -/
def childrenOf (v : Node) (tag : Text) : List Node := v.children.filter fun child => child.tag = tag

/-- The first child with a tag and attributes. -/
def child? (v : Node) (tag : Text) (attributes : List (Text × Text)) : Option Node :=
  (v.childrenOf tag).find? fun child => attributes.all fun a => child.attribute? a.1 = some a.2

/-! ### Allowed characters -/

/-- A tree is **clean** if the values and texts in it are allowed. -/
inductive Clean : Node → Prop
  | mk {tag : Text} {attributes : List (Text × Text)} {text : Text} {children : List Node}
      (hattributes : ∀ a ∈ attributes, Allowed a.2) (htext : Allowed text)
      (hchildren : ∀ child ∈ children, child.Clean) : Clean ⟨tag, attributes, text, children⟩

theorem Clean.allowed_text (h : v.Clean) : Allowed v.text := by
  cases h with
  | mk _ htext _ => exact htext

theorem Clean.allowed_attribute (h : v.Clean) (hvalue : v.attribute? name = some value) :
    Allowed value := by
  cases h with
  | mk hattributes _ _ =>
    obtain ⟨a, hfind, rfl⟩ := Option.map_eq_some_iff.mp hvalue
    exact hattributes a (List.mem_of_find?_eq_some hfind)

theorem Clean.childrenOf (h : v.Clean) : ∀ child ∈ v.childrenOf tag, child.Clean := by
  cases h with
  | mk _ _ hchildren => exact fun child hmem => hchildren child (List.mem_filter.mp hmem).1

theorem Clean.child (h : v.Clean) (hchild : v.child? tag attributes = some u) : u.Clean :=
  h.childrenOf u (List.mem_of_find?_eq_some hchild)

/-! ### Line ends -/

mutual

/-- A tree with the line ends of its texts unified. -/
def unified : Node → Node
  | ⟨tag, attributes, text, children⟩ => ⟨tag, attributes, text.unifyLines, allUnified children⟩

/-- Trees with the line ends of their texts unified. -/
def allUnified : List Node → List Node
  | [] => []
  | v :: vs => v.unified :: allUnified vs

end

theorem allUnified_eq_map (vs : List Node) : allUnified vs = vs.map unified := by
  induction vs with
  | nil => rfl
  | cons v vs ih => rw [allUnified, ih, List.map_cons]

@[simp]
theorem tag_unified (v : Node) : v.unified.tag = v.tag := by
  rcases v with ⟨⟩
  rfl

@[simp]
theorem text_unified (v : Node) : v.unified.text = v.text.unifyLines := by
  rcases v with ⟨⟩
  rfl

@[simp]
theorem children_unified (v : Node) : v.unified.children = v.children.map unified := by
  rcases v with ⟨⟩
  exact allUnified_eq_map _

/-- Values of attributes stay. -/
@[simp]
theorem attribute?_unified (v : Node) (name : Text) : v.unified.attribute? name = v.attribute? name := by
  rcases v with ⟨⟩
  rfl

@[simp]
theorem childrenOf_unified (v : Node) (tag : Text) :
    v.unified.childrenOf tag = (v.childrenOf tag).map unified := by
  simp [childrenOf, List.filter_map, Function.comp_def]

/-- **The same children are found**, with their line ends unified. -/
@[simp]
theorem child?_unified (v : Node) (tag : Text) (attributes : List (Text × Text)) :
    v.unified.child? tag attributes = (v.child? tag attributes).map unified := by
  simp only [child?, childrenOf_unified, List.find?_map, Function.comp_def, attribute?_unified]

end Node

/-! ### Trees of elements -/

theorem nodes_eq_map (level : ℕ) (es : List Element) : nodes level es = es.map (Element.node level) := by
  induction es with
  | nil => rfl
  | cons e es ih => rw [nodes, ih, List.map_cons]

theorem children_node (level : ℕ) (tag : Text) (attributes : List (Text × Text))
    (children : List Element) : ((Element.branch tag attributes children).node level).children =
      children.map (Element.node (level + 1)) := nodes_eq_map (level + 1) children

theorem allowed_leading (level : ℕ) (es : List Element) : Allowed (leading level es) := by
  cases es with
  | nil => exact allowed_nil
  | cons e es => exact allowed_newLine level

theorem unifyLines_leading (level : ℕ) (es : List Element) :
    (leading level es).unifyLines = leading level es := by
  cases es with
  | nil => rfl
  | cons e es =>
    simpa [leading, Text.unifyLines] using Text.unifyLines_append (cr_not_mem_newLine level) []

mutual

/-- **A tree is clean if what the element carries is allowed.** -/
theorem Element.clean_node (level : ℕ) (e : Element) (h : Allowed e.content) : (e.node level).Clean :=
  match e with
  | .leaf tag attributes text => by
    obtain ⟨hattributes, htext⟩ := allowed_append.mp h
    exact .mk (allowed_flatMap.mp hattributes) htext (by simp)
  | .branch tag attributes children => by
    obtain ⟨hattributes, hchildren⟩ := allowed_append.mp h
    exact .mk (allowed_flatMap.mp hattributes) (allowed_leading _ _)
      (clean_nodes (level + 1) children hchildren)

theorem clean_nodes (level : ℕ) (es : List Element) (h : Allowed (contents es)) :
    ∀ child ∈ nodes level es, child.Clean :=
  match es with
  | [] => by simp [nodes]
  | e :: es => by
    obtain ⟨he, hes⟩ := allowed_append.mp h
    exact List.forall_mem_cons.mpr ⟨e.clean_node level he, clean_nodes level es hes⟩

end

mutual

/-- **Unifying the line ends of an element unifies those of its tree.** -/
theorem Element.node_unified (level : ℕ) (e : Element) : e.unified.node level = (e.node level).unified :=
  match e with
  | .leaf tag attributes text => rfl
  | .branch tag attributes children => by
    have hleading : leading (level + 1) (unifiedAll children) = leading (level + 1) children := by
      cases children <;> rfl
    rw [Element.unified, Element.node, Element.node, Node.unified, nodes_unifiedAll (level + 1) children,
      hleading, unifyLines_leading]

theorem nodes_unifiedAll (level : ℕ) (es : List Element) :
    nodes level (unifiedAll es) = Node.allUnified (nodes level es) :=
  match es with
  | [] => rfl
  | e :: es => by
    rw [unifiedAll, nodes, nodes, Node.allUnified, e.node_unified level, nodes_unifiedAll level es]

end

end Xml

end IncludeTrace
