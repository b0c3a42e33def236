import IncludeTrace.Proofs.Export.NodeLink
import IncludeTrace.Proofs.Xml.Tree

/-!
# Multigraphs in XML trees

What is known of a library that writes XML is little: its documents are written from elements of which
one can tell the multigraph, with its arcs in any order, and that carry no characters of their own which
XML does not allow (`Xml.Tells`). How elements become a text, and are read from it, is the same for
every library.

So a document can be read if and only if the nodes have only characters that are allowed
(`Xml.Tells.allowed_document_iff`), and what is read then is the tree with its line ends unified
(`Xml.Tells.read_eq_some`).
-/

namespace IncludeTrace

open Xml

namespace Xml

/-! ### Numerals -/

/-- The natural number that a text writes. -/
def nat? (t : Text) : Option ℕ :=
  if t.isEmpty || !t.all Char.isDigit then none else some (Numeral.ofDigits t)

theorem nat?_ofNat (n : ℕ) : nat? (Text.ofNat n) = some n := by
  have hne : (Text.ofNat n).isEmpty = false := by
    rw [List.isEmpty_eq_false_iff]
    exact List.ne_nil_of_length_pos Nat.length_toDigits_pos
  have hdigits : (Text.ofNat n).all Char.isDigit = true :=
    List.all_eq_true.mpr Json.isDigit_ofNat
  rw [nat?, hne, hdigits, Json.ofDigits_ofNat]
  rfl

/-- A text without carriage returns has its line ends unified. -/
theorem unifyLines_of_not_mem {t : Text} (h : '\r' ∉ t) : t.unifyLines = t := by
  simpa [Text.unifyLines] using Text.unifyLines_append h []

/-- A numeral has no line end. -/
theorem nat?_unifyLines {t : Text} {n : ℕ} (h : nat? t = some n) : nat? t.unifyLines = some n := by
  have hdigits : t.all Char.isDigit = true := by
    by_contra hnot
    rw [nat?, if_pos (by simp only [Bool.eq_false_iff.mpr hnot, Bool.not_false, Bool.or_true])] at h
    cases h
  have hcr : '\r' ∉ t := fun hmem => absurd (List.all_eq_true.mp hdigits _ hmem) (by decide)
  rw [unifyLines_of_not_mem hcr, h]

end Xml

/-! ### What is known of the trees -/

/-- The values of a node are **allowed** if all characters of its name, path and label are. -/
def Multigraph.Node.Allowed (n : Multigraph.Node) : Prop :=
  Xml.Allowed n.id ∧ Xml.Allowed n.path ∧ Xml.Allowed n.label

namespace Xml

/-- An element **tells** a multigraph to a reader of nodes and a reader of arcs, if it can be read back,
they find the nodes in order and the arcs in some order, and it carries nothing that is not allowed
unless the nodes do. -/
structure Tells (nodes? : Node → Option (List Multigraph.Node)) (arcs? : Node → Option (List Arc))
    (m : Multigraph) (e : Element) : Prop where
  readable : Readable e
  nodes : nodes? (e.node 0) = some m.nodes
  arcs : ∃ arcs, arcs.Perm m.arcs ∧ arcs? (e.node 0) = some arcs
  plain : (∀ n ∈ m.nodes, n.Allowed) → Allowed e.content

/-! ### Characters of documents -/

theorem contents_append (es es' : List Element) : contents (es ++ es') = contents es ++ contents es' := by
  induction es with
  | nil => rfl
  | cons e es ih => rw [List.cons_append, contents, contents, ih, List.append_assoc]

theorem contents_map {α : Type} (f : α → Element) (l : List α) :
    contents (l.map f) = l.flatMap fun x => (f x).content := by
  induction l with
  | nil => rfl
  | cons x l ih => rw [List.map_cons, contents, ih, List.flatMap_cons]

theorem allowed_contents_map {α : Type} {f : α → Element} {l : List α} :
    Allowed (contents (l.map f)) ↔ ∀ x ∈ l, Allowed (f x).content := by
  rw [contents_map, allowed_flatMap]

theorem allowed_ofNat (n : ℕ) : Allowed (Text.ofNat n) := by
  intro c hc
  refine isChar_of_isNameChar ?_
  simp [isNameChar, Char.isAlphanum, Json.isDigit_ofNat c hc]

/-! ### Lists of nodes and arcs -/

variable {α : Type} {f f' : Node → Option α} {l : List Node} {xs : List α}

/-- What is told by trees one by one is told by them all, also with unified line ends. -/
theorem mapM_unified (r : α → α) (h : ∀ v x, f v = some x → f' v.unified = some (r x))
    (hl : l.mapM f = some xs) : (l.map Node.unified).mapM f' = some (xs.map r) := by
  rw [mapM_eq_some_iff, List.forall₂_map_left_iff, List.forall₂_map_right_iff]
  exact (mapM_eq_some_iff.mp hl).imp h

/-- What does not depend on line ends is told by trees with unified line ends as before. -/
theorem mapM_unified_of_same (h : ∀ v x, f v = some x → f' v.unified = some x)
    (hl : l.mapM f = some xs) : (l.map Node.unified).mapM f' = some xs := by
  rw [mapM_unified id h hl, List.map_id]

/-- What holds of everything that a tree tells holds of all that trees tell. -/
theorem forall_mem_of_mapM {P : α → Prop} (h : ∀ v ∈ l, ∀ x, f v = some x → P x)
    (hl : l.mapM f = some xs) : ∀ x ∈ xs, P x := by
  intro x hx
  obtain ⟨v, hv, hvalue⟩ := exists_mem_of_forall₂ (mapM_eq_some_iff.mp hl) hx
  exact h v hv x hvalue

theorem mapM_map_eq_some {β : Type} {write : β → Element} {level : ℕ} {bs : List β} {r : β → α}
    (h : ∀ b ∈ bs, f ((write b).node level) = some (r b)) :
    (bs.map fun b => (write b).node level).mapM f = some (bs.map r) := by
  rw [mapM_eq_some_iff, List.forall₂_map_left_iff, List.forall₂_map_right_iff, List.forall₂_same]
  exact h

/-- What is written as trees is told by them all, if it is told by each of them. -/
theorem mapM_map_self {write : α → Element} {level : ℕ}
    (h : ∀ x ∈ xs, f ((write x).node level) = some x) :
    (xs.map fun x => (write x).node level).mapM f = some xs :=
  (mapM_map_eq_some h).trans (congrArg some (List.map_id xs))

end Xml

variable {m : Multigraph} {a : Arc}

/-- Arcs carry the names of nodes and nothing else. -/
theorem Multigraph.allowed_of_mem_groupedArcs (h : m.WellFormed) (hnodes : ∀ n ∈ m.nodes, n.Allowed)
    (ha : a ∈ m.groupedArcs) : Allowed a.source ∧ Allowed a.target := by
  obtain ⟨n, hn, n', hn', hsource, htarget⟩ :=
    exists_of_mem_arcs h ((groupedArcs_perm h).mem_iff.mp ha)
  rw [hsource, htarget]
  exact ⟨(hnodes n hn).1, (hnodes n' hn').1⟩

/-! ### Documents that tell a multigraph -/

namespace Xml.Tells

variable {nodes? : Xml.Node → Option (List Multigraph.Node)} {arcs? : Xml.Node → Option (List Arc)}
  {e : Element}

/-- **A document has only allowed characters if and only if the nodes have**, where what is told by a
clean tree is allowed. -/
theorem allowed_document_iff (h : Tells nodes? arcs? m e)
    (hclean : ∀ {root ns}, root.Clean → nodes? root = some ns → ∀ n ∈ ns, n.Allowed) :
    Allowed (document e) ↔ ∀ n ∈ m.nodes, n.Allowed := by
  rw [allowed_document h.readable]
  exact ⟨fun hcontent => hclean (e.clean_node 0 hcontent) h.nodes, h.plain⟩

/-- A document with allowed characters is read as a tree with unified line ends. -/
theorem read_eq_some (h : Tells nodes? arcs? m e) (hallowed : Allowed (document e)) :
    Xml.read (document e) = some (e.node 0).unified := by
  rw [read_document h.readable ((allowed_document h.readable).mp hallowed), e.node_unified]

end Xml.Tells

end IncludeTrace
