import IncludeTrace.Proofs.Graph.Growth
import IncludeTrace.Proofs.Path.Change
import IncludeTrace.Proofs.Path.Faithful
import Mathlib.Logic.Relation

/-!
# Respelled paths

A path may be respelled in one place after another: a separator takes the place of the other or an ASCII
letter that of its other case, a separator gets `.` or a name and `..` put in behind it, or it is doubled
(`Path.Respells`). Each of these steps keeps the key (`Path.Respells.key_eq`), so all the paths that come
of one name one item of a graph, `Graph.ensure_respelled`.

Two facts carry the step. The key takes no notice of the case of ASCII letters, neither where paths are
brought into normal form (`Path.KeepsShape.normal_change`) nor where the result is put in lower case
(`Path.key_map_toLower`). And the pieces that are put in leave those before them as they were
(`Path.Idle`), so the key does not change as long as the root of the path does not (`Path.key_insert`).
-/

namespace IncludeTrace

namespace Text

theorem startsWith_map {f : Char → Char} {s : Text} (hf : ∀ d ∈ s, ∀ c, f c = d ↔ c = d) (t : Text) :
    startsWith (t.map f) s = t.startsWith s := by
  induction s generalizing t with
  | nil => simp [startsWith]
  | cons d s ih =>
    obtain ⟨hd, hs⟩ := List.forall_mem_cons.mp hf
    cases t with
    | nil => rfl
    | cons c t =>
      have hfirst : (d == f c) = (d == c) := by simp [eq_comm (a := d), hd]
      have hrest : s.isPrefixOf (t.map f) = s.isPrefixOf t := ih hs t
      simp only [startsWith, List.map_cons, List.isPrefixOf, hfirst, hrest]

end Text

namespace Path

variable {cwd p q : Text}

/-! ### Letters in another case -/

theorem join_map {f : Char → Char} (hslash : ∀ c, f c = '/' ↔ c = '/') (cwd p : Text) :
    join (cwd.map f) (p.map f) = (join cwd p).map f := by
  have hstart : ∀ t, Text.startsWith (t.map f) ['/'] = Text.startsWith t ['/'] :=
    Text.startsWith_map (List.forall_mem_singleton.mpr hslash)
  have hend : Text.endsWith (cwd.map f) ['/'] = cwd.endsWith ['/'] := by
    have hreverse := hstart cwd.reverse
    rwa [List.map_reverse] at hreverse
  simp only [join, hstart, hend, List.isEmpty_map]
  split
  · rfl
  · split <;> simp [(hslash _).mpr rfl]

theorem slashed_map_toLower (p : Text) :
    slashed (p.map Char.toLower) = (slashed p).map Char.toLower := by
  simp only [slashed, List.map_map]
  refine List.map_congr_left fun c _ => ?_
  have hback : c.toLower = '\\' ↔ c = '\\' := Casing.toLower_eq_iff rfl
  simp only [Function.comp_apply, hback]
  split <;> rfl

theorem hasDrive_map_toLower (p : Text) : hasDrive (p.map Char.toLower) = hasDrive p := by
  have hletter : ∀ c : Char, isDriveLetter c.toLower = isDriveLetter c :=
    Casing.of_toLower (P := fun c d => isDriveLetter d = isDriveLetter c) (fun _ => rfl)
      (by decide +kernel)
  rcases p with _ | ⟨a, _ | ⟨b, _ | ⟨c, p⟩⟩⟩
  · rfl
  · rfl
  · simp [hasDrive]
  · have hcolon : b.toLower = ':' ↔ b = ':' := Casing.toLower_eq_iff rfl
    have hslash : c.toLower = '/' ↔ c = '/' := Casing.toLower_eq_iff rfl
    by_cases hb : b = ':' <;> by_cases hc : c = '/' <;> simp_all [hasDrive]

/-- **The key of a path does not depend on the case of ASCII letters**, nor does it on their case in the
current directory. -/
theorem key_map_toLower (cwd p : Text) :
    key (cwd.map Char.toLower) (p.map Char.toLower) = key cwd p := by
  have hslash : ∀ c : Char, c.toLower = '/' ↔ c = '/' := fun c => Casing.toLower_eq_iff rfl
  have hdot : ∀ c : Char, c.toLower = '.' ↔ c = '.' := fun c => Casing.toLower_eq_iff rfl
  have hshape : KeepsShape (List.map Char.toLower) := keepsShape_map hslash hdot
  have hforeign : isForeign (p.map Char.toLower) = isForeign p := by
    rw [isForeign, isForeign, slashed_map_toLower, hasDrive_map_toLower,
      Text.startsWith_map (by simpa using hslash)]
  rw [key, key, hforeign, absolute, absolute, slashed_map_toLower, join_map hslash,
    hshape.normal_change, hshape.normal_change, slashed_map_toLower, Text.lower_map_toLower,
    Text.lower_map_toLower]

/-! ### Detours -/

/-- Segments are **idle** if they change nothing in the ones kept before them. -/
def Idle (ws : List Text) : Prop := ∀ rooted kept, ws.foldl (addSegment rooted) kept = kept

theorem idle_of_here {w : Text} (h : w = [] ∨ w = ['.']) : Idle [w] :=
  fun _ kept => addSegment_of_here h kept

theorem idle_back {name : Text} (h : IsName name) : Idle [name, ['.', '.']] := by
  intro rooted kept
  rw [List.foldl_cons, List.foldl_cons, List.foldl_nil, addSegment_of_isName h, addSegment_back]
  exact if_neg h.2.2

/-- The slashes that a path begins with are all that its root depends on. -/
theorem root_append_of_ne {t : Text} (h : ∃ c ∈ t, c ≠ '/') (s : Text) : root (t ++ s) = root t := by
  rcases t with _ | ⟨a, _ | ⟨b, _ | ⟨c, t⟩⟩⟩
  · simp at h
  · simp_all [root]
  · by_cases ha : a = '/' <;> simp_all [root]
  · by_cases ha : a = '/' <;> by_cases hb : b = '/' <;> by_cases hc : c = '/' <;> simp [root, ha, hb, hc]

/-- What stands behind a slash makes no drive. -/
theorem hasDrive_append_cons (t p q : Text) : hasDrive (t ++ '/' :: p) = hasDrive (t ++ '/' :: q) := by
  rcases t with _ | ⟨a, _ | ⟨b, _ | ⟨c, t⟩⟩⟩
  · rw [hasDrive_of_startsWith rfl, hasDrive_of_startsWith rfl]
  · simp [hasDrive]
  · by_cases hb : b = ':' <;> simp [hasDrive, hb]
  · by_cases hb : b = ':' <;> by_cases hc : c = '/' <;> simp [hasDrive, hb, hc]

/-! ### Respelled paths -/

/-- Both kinds of slashes **separate** segments. -/
def IsSeparator (c : Char) : Prop := c = '/' ∨ c = '\\'

instance (c : Char) : Decidable (IsSeparator c) := inferInstanceAs (Decidable (c = '/' ∨ c = '\\'))

/-- The separator between two texts is **extensible** if it is not one of those that the path begins
with, or if it is the last of them. -/
def Extensible (before after : Text) : Prop :=
  (∃ c ∈ before, ¬ IsSeparator c) ∨ ∀ c ∈ after.head?, ¬ IsSeparator c

/-- One path **respells** another if it differs from it in one place: in a separator, in the case of an
ASCII letter (`Char.toLower` knows no others), in a `.` or a name with its `..` that are put in behind a
separator, or in a separator that is doubled. The separators that a path begins with stay as many as
they are. -/
inductive Respells : Text → Text → Prop
  | separator (before after : Text) {c d : Char} (hc : IsSeparator c) (hd : IsSeparator d) :
      Respells (before ++ c :: after) (before ++ d :: after)
  | letter (before after : Text) {c d : Char} (h : c.toLower = d.toLower) :
      Respells (before ++ c :: after) (before ++ d :: after)
  | here (before after : Text) {c d : Char} (hc : IsSeparator c) (hd : IsSeparator d)
      (hplace : Extensible before after) :
      Respells (before ++ c :: after) (before ++ c :: '.' :: d :: after)
  | back (before after name : Text) {c d e : Char} (hc : IsSeparator c) (hd : IsSeparator d)
      (he : IsSeparator e) (hname : IsName name) (hwhole : ∀ x ∈ name, ¬ IsSeparator x)
      (hplace : Extensible before after) :
      Respells (before ++ c :: after) (before ++ c :: (name ++ d :: '.' :: '.' :: e :: after))
  | double (before after : Text) {c : Char} (hc : IsSeparator c)
      (hplace : ∃ x ∈ before, ¬ IsSeparator x) :
      Respells (before ++ c :: after) (before ++ c :: c :: after)

variable {before after : Text} {c d : Char}

theorem slashed_append_cons (hc : IsSeparator c) (before after : Text) :
    slashed (before ++ c :: after) = slashed before ++ '/' :: slashed after := by
  have hslash : (if c = '\\' then '/' else c) = '/' := by rcases hc with rfl | rfl <;> rfl
  rw [slashed, List.map_append, List.map_cons, hslash, slashed, slashed]

theorem exists_ne_slash (h : ∃ x ∈ p, ¬ IsSeparator x) : ∃ x ∈ slashed p, x ≠ '/' := by
  obtain ⟨x, hx, hsep⟩ := h
  refine ⟨x, List.mem_map.mpr ⟨x, hx, if_neg fun e => hsep (.inr e)⟩, fun e => hsep (.inl e)⟩

theorem root_slashed_of_head? (h : ∀ x ∈ p.head?, ¬ IsSeparator x) : root (slashed p) = [] := by
  cases p with
  | nil => rfl
  | cons x p =>
    obtain ⟨hslash, hback⟩ := not_or.mp (h x rfl)
    simp [slashed, root, hslash, hback]

/-- **Idle segments may be put in behind a separator.** -/
theorem key_insert (cwd inner : Text) (hc : IsSeparator c) (hd : IsSeparator d)
    (hidle : Idle (Text.pieces '/' (slashed inner)))
    (hplace : (∃ x ∈ before, ¬ IsSeparator x) ∨
      (∀ x ∈ after.head?, ¬ IsSeparator x) ∧ ∀ x ∈ (inner ++ d :: after).head?, ¬ IsSeparator x) :
    key cwd (before ++ c :: (inner ++ d :: after)) = key cwd (before ++ c :: after) := by
  have hpieces : ∀ rooted kept,
      (Text.pieces '/' (slashed (before ++ c :: (inner ++ d :: after)))).foldl (addSegment rooted) kept =
        (Text.pieces '/' (slashed (before ++ c :: after))).foldl (addSegment rooted) kept := by
    intro rooted kept
    rw [slashed_append_cons hc, slashed_append_cons hd, slashed_append_cons hc,
      Text.pieces_append_cons, Text.pieces_append_cons, Text.pieces_append_cons, List.foldl_append,
      List.foldl_append, List.foldl_append, hidle]
  have hroot : root (slashed (before ++ c :: (inner ++ d :: after))) =
      root (slashed (before ++ c :: after)) := by
    rw [slashed_append_cons hc, slashed_append_cons hc]
    rcases hplace with hbefore | ⟨hafter, hinner⟩
    · have hne := exists_ne_slash hbefore
      rw [root_append_of_ne hne, root_append_of_ne hne]
    · exact root_append_cons (root_slashed_of_head? hinner) (root_slashed_of_head? hafter) _
  have hdrive : hasDrive (slashed (before ++ c :: (inner ++ d :: after))) =
      hasDrive (slashed (before ++ c :: after)) := by
    rw [slashed_append_cons hc, slashed_append_cons hc]
    exact hasDrive_append_cons _ _ _
  exact key_congr cwd hroot hdrive (normal_congr hroot (hpieces _ [])) fun _ => hpieces

/-- **Step.** A path that is respelled in one place keeps its key. -/
theorem Respells.key_eq (h : Respells p q) (cwd : Text) : key cwd q = key cwd p := by
  cases h with
  | separator before after hc hd =>
    rw [← key_slashed, ← key_slashed cwd (before ++ _ :: after), slashed_append_cons hc,
      slashed_append_cons hd]
  | letter before after h =>
    rw [← key_map_toLower, ← key_map_toLower cwd (before ++ _ :: after)]
    simp only [List.map_append, List.map_cons, h]
  | @here before after c d hc hd hplace =>
    have hhead : ∀ x ∈ (['.'] ++ d :: after).head?, ¬ IsSeparator x := by
      rintro x ⟨⟩
      decide
    exact key_insert cwd ['.'] hc hd (idle_of_here (.inr rfl)) (hplace.imp_right fun h => ⟨h, hhead⟩)
  | @back before after name c d e hc hd he hname hwhole hplace =>
    have hslash : '/' ∉ name := fun h => hwhole _ h (.inl rfl)
    have hback : '\\' ∉ name := fun h => hwhole _ h (.inr rfl)
    have hidle : Idle (Text.pieces '/' (slashed (name ++ d :: ['.', '.']))) := by
      rw [slashed_append_cons hd, Text.pieces_append_cons, slashed_of_not_mem hback,
        Text.pieces_of_not_mem hslash]
      exact idle_back hname
    have hhead : ∀ x ∈ (name ++ d :: ['.', '.'] ++ e :: after).head?, ¬ IsSeparator x := by
      obtain ⟨x, rest, rfl⟩ := List.exists_cons_of_ne_nil hname.1
      rintro y ⟨⟩
      exact hwhole x List.mem_cons_self
    simpa using key_insert cwd _ hc he hidle (hplace.imp_right fun h => ⟨h, hhead⟩)
  | double before after hc hplace =>
    exact key_insert cwd [] hc hc (idle_of_here (.inl rfl)) (.inl hplace)

/-- **Run.** A path that is respelled in any number of places keeps its key. -/
theorem key_of_respells (h : Relation.ReflTransGen Respells p q) (cwd : Text) :
    key cwd q = key cwd p := by
  induction h with
  | refl => rfl
  | tail _ hstep ih => exact (hstep.key_eq cwd).trans ih

end Path

/-- **Respelled paths name one item.**

A path that is respelled in any number of places keeps its key, in every current directory. Ensuring
that its file is there, behind that of the path as it was, changes nothing in the graph, and both paths
name the same item. -/
theorem Graph.ensure_respelled (g : Graph) (cwd p q : Text)
    (h : Relation.ReflTransGen Path.Respells p q) :
    Path.key cwd q = Path.key cwd p ∧ (g.ensure cwd p).ensure cwd q = g.ensure cwd p ∧
      ∃ i, (g.ensure cwd p).item? cwd p = some i ∧
        ((g.ensure cwd p).ensure cwd q).item? cwd q = some i := by
  have hkey : Path.key cwd q = Path.key cwd p := Path.key_of_respells h cwd
  have hhas : (g.ensure cwd p).has (Path.key cwd p) := Graph.has_ensure.mpr (.inr rfl)
  have hsame : (g.ensure cwd p).ensure cwd q = g.ensure cwd p := if_pos (hkey ▸ hhas)
  obtain ⟨i, hi⟩ := Option.isSome_iff_exists.mp hhas
  exact ⟨hkey, hsame, i, hi, by rw [hsame, Graph.item?, hkey, hi]⟩

/-- A path with a drive is respelled in every way; its item keeps the spelling it was first named by. -/
theorem Graph.ensure_respelled_mixed :
    let p : Text := ['C', ':', '\\', 'b']
    let q : Text := ['c', ':', '/', 'x', '\\', '.', '.', '/', '/', '.', '\\', 'B']
    let g : Graph := ⟨[⟨['o'], ['O'], [['o']]⟩]⟩
    Relation.ReflTransGen Path.Respells p q ∧ Path.key ['/'] q = ['c', ':', '/', 'b'] ∧
      ((g.ensure ['/'] p).ensure ['/'] q).items = [⟨['o'], ['O'], [['o']]⟩,
        ⟨['c', ':', '/', 'b'], p, []⟩] ∧
      ((g.ensure ['/'] p).ensure ['/'] q).item? ['/'] q = some ⟨['c', ':', '/', 'b'], p, []⟩ := by
  intro p q g
  have hsmall : Path.Respells p ['c', ':', '\\', 'b'] := .letter [] [':', '\\', 'b'] (by decide)
  have hslash : Path.Respells ['c', ':', '\\', 'b'] ['c', ':', '/', 'b'] :=
    .separator ['c', ':'] ['b'] (.inr rfl) (.inl rfl)
  have hback : Path.Respells ['c', ':', '/', 'b']
      ['c', ':', '/', 'x', '\\', '.', '.', '/', 'b'] :=
    .back ['c', ':'] ['b'] ['x'] (.inl rfl) (.inr rfl) (.inl rfl) ⟨by decide, by decide, by decide⟩
      (List.forall_mem_singleton.mpr (by decide)) (.inl ⟨'c', List.mem_cons_self, by decide⟩)
  have hdouble : Path.Respells ['c', ':', '/', 'x', '\\', '.', '.', '/', 'b']
      ['c', ':', '/', 'x', '\\', '.', '.', '/', '/', 'b'] :=
    .double ['c', ':', '/', 'x', '\\', '.', '.'] ['b'] (.inl rfl)
      ⟨'c', List.mem_cons_self, by decide⟩
  have hhere : Path.Respells ['c', ':', '/', 'x', '\\', '.', '.', '/', '/', 'b']
      ['c', ':', '/', 'x', '\\', '.', '.', '/', '/', '.', '\\', 'b'] :=
    .here ['c', ':', '/', 'x', '\\', '.', '.', '/'] ['b'] (.inl rfl) (.inr rfl)
      (.inl ⟨'c', List.mem_cons_self, by decide⟩)
  have hcapital : Path.Respells ['c', ':', '/', 'x', '\\', '.', '.', '/', '/', '.', '\\', 'b'] q :=
    .letter ['c', ':', '/', 'x', '\\', '.', '.', '/', '/', '.', '\\'] [] (by decide)
  have h : Relation.ReflTransGen Path.Respells p q :=
    (((((Relation.ReflTransGen.single hsmall).tail hslash).tail hback).tail hdouble).tail hhere).tail
      hcapital
  obtain ⟨hkey, hsame, i, hp, hq⟩ := Graph.ensure_respelled g ['/'] p q h
  have hi : some i = some ⟨['c', ':', '/', 'b'], p, []⟩ := hp.symm.trans (by decide +kernel)
  exact ⟨h, hkey.trans (by decide +kernel), (congrArg Graph.items hsame).trans (by decide +kernel),
    hq.trans hi⟩

end IncludeTrace
