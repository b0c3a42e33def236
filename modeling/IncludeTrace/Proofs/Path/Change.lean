import IncludeTrace.Proofs.Path.Normal
import IncludeTrace.Proofs.Text.Casing

/-!
# Changes that keep the shape of paths

A change of texts keeps the shape of paths (`Path.KeepsShape`) if it changes both sides of a slash on
their own, and makes no slashes, no empty segments and none of the two that have a meaning. Such a change
may be made before a path is brought into normal form or afterwards, to the same end
(`Path.KeepsShape.normal_change`).

Two kinds of changes are meant: characters that change one by one, as long as no slash and no dot is made
or lost (`Path.keepsShape_map`), and lower case, where some of them depend on their neighbours
(`Path.keepsShape_lower`).
-/

namespace IncludeTrace.Path

/-- A change of texts **keeps the shape** of paths if it changes both sides of a slash on their own,
makes no slash, and turns no other segment into an empty one, `.` or `..`. -/
structure KeepsShape (change : Text → Text) : Prop where
  append_cons (t s : Text) : change (t ++ '/' :: s) = change t ++ '/' :: change s
  slash_mem {t : Text} : '/' ∈ change t → '/' ∈ t
  eq_iff (t : Text) {w : Text} : ¬ IsName w → (change t = w ↔ t = w)

namespace KeepsShape

variable {change : Text → Text} (h : KeepsShape change)

include h

theorem nil : change [] = [] := (h.eq_iff [] (by decide)).mpr rfl

theorem cons (t : Text) : change ('/' :: t) = '/' :: change t := by
  simpa only [h.nil, List.nil_append] using h.append_cons [] t

/-! ### Pieces and roots -/

theorem join (ts : List Text) : change (Text.join ['/'] ts) = Text.join ['/'] (ts.map change) := by
  induction ts with
  | nil => exact h.nil
  | cons t ts ih =>
    by_cases hne : ts = []
    · subst hne
      simp [Text.join]
    · have hmap : ts.map change ≠ [] := fun e => hne (List.map_eq_nil_iff.mp e)
      rw [List.map_cons, Text.join_cons_of_ne_nil hne, Text.join_cons_of_ne_nil hmap, ← ih,
        List.append_assoc, List.append_assoc]
      exact h.append_cons t _

theorem pieces (t : Text) : (change t).pieces '/' = (t.pieces '/').map change := by
  have hne : (t.pieces '/').map change ≠ [] := by simp [Text.pieces_ne_nil]
  have hslash : ∀ w ∈ (t.pieces '/').map change, '/' ∉ w := by
    simp only [List.forall_mem_map]
    exact fun w hw hmem => (Text.of_mem_pieces hw).1 (h.slash_mem hmem)
  calc (change t).pieces '/'
      = (change (Text.join ['/'] (t.pieces '/'))).pieces '/' := by rw [Text.join_pieces]
    _ = (t.pieces '/').map change := by rw [h.join, Text.pieces_join hne hslash]

/-- As many slashes as a text begins with, it begins with when it is changed. -/
theorem startsWith_replicate (n : ℕ) (t : Text) :
    (change t).startsWith (List.replicate n '/') = t.startsWith (List.replicate n '/') := by
  induction n generalizing t with
  | zero => simp [Text.startsWith]
  | succ n ih =>
    by_cases ht : t.head? = some '/'
    · obtain ⟨s, rfl⟩ := List.head?_eq_some_iff.mp ht
      rw [h.cons]
      simpa [Text.startsWith, List.replicate_succ] using ih s
    · -- the first piece is not empty, and it is not empty when it is changed
      have hhead : (change t).head? ≠ some '/' := by
        intro e
        obtain ⟨s, hs⟩ := List.head?_eq_some_iff.mp e
        have hpieces := h.pieces t
        rw [hs, Text.pieces_cons_self] at hpieces
        obtain ⟨w, ws, hws, hw, hrest⟩ := List.map_eq_cons_iff.mp hpieces.symm
        have hne : ws ≠ [] := fun e => Text.pieces_ne_nil '/' s (by rw [← hrest, e]; rfl)
        rw [(h.eq_iff w (by decide)).mp hw] at hws
        rw [← Text.join_pieces '/' t, hws, Text.join_cons_of_ne_nil hne] at ht
        exact ht rfl
      have hnot : ∀ {s : Text}, s.head? ≠ some '/' →
          s.startsWith (List.replicate (n + 1) '/') = false := by
        intro s hs
        cases s with
        | nil => rfl
        | cons c s =>
          have hc : '/' ≠ c := fun e => hs (congrArg some e.symm)
          simp [Text.startsWith, List.replicate_succ, List.isPrefixOf, hc]
      rw [hnot hhead, hnot ht]

theorem root_change (p : Text) : root (change p) = root p := by
  have hone : (change p).startsWith ['/'] = p.startsWith ['/'] := h.startsWith_replicate 1 p
  have htwo : (change p).startsWith ['/', '/'] = p.startsWith ['/', '/'] :=
    h.startsWith_replicate 2 p
  have hthree : (change p).startsWith ['/', '/', '/'] = p.startsWith ['/', '/', '/'] :=
    h.startsWith_replicate 3 p
  rw [root_eq, root_eq p, hone, htwo, hthree]

/-! ### Normal form -/

/-- Segments may be changed before they are added or afterwards. -/
theorem addSegment (rooted : Bool) (kept : List Text) (w : Text) :
    addSegment rooted (kept.map change) (change w) = (addSegment rooted kept w).map change := by
  have hnil : ∀ v, change v = [] ↔ v = [] := fun v => h.eq_iff v (by decide)
  have hhere : ∀ v, change v = ['.'] ↔ v = ['.'] := fun v => h.eq_iff v (by decide)
  have hback : ∀ v, change v = ['.', '.'] ↔ v = ['.', '.'] := fun v => h.eq_iff v (by decide)
  cases kept with
  | nil =>
    simp only [Path.addSegment, List.map_nil, hnil, hhere, hback]
    split_ifs <;> simp
  | cons last rest =>
    simp only [Path.addSegment, List.map_cons, hnil, hhere, hback]
    split_ifs <;> simp

theorem settle (rooted : Bool) (ws : List Text) :
    settle rooted (ws.map change) = (settle rooted ws).map change := by
  have hrun : ∀ kept : List Text, (ws.map change).foldl (Path.addSegment rooted) (kept.map change) =
      (ws.foldl (Path.addSegment rooted) kept).map change := by
    induction ws with
    | nil => exact fun _ => rfl
    | cons w ws ih =>
      intro kept
      rw [List.map_cons, List.foldl_cons, h.addSegment, ih, List.foldl_cons]
  exact hrun []

theorem segments (p : Text) : segments (change p) = (segments p).map change := by
  rw [segments_eq, segments_eq, h.root_change, h.pieces, h.settle, List.map_reverse]

theorem append_join {r : Text} (hr : r = [] ∨ r = ['/'] ∨ r = ['/', '/']) (ws : List Text) :
    change (r ++ Text.join ['/'] ws) = r ++ Text.join ['/'] (ws.map change) := by
  rcases hr with rfl | rfl | rfl <;>
    simp only [List.nil_append, List.cons_append, h.cons, h.join]

/-- **A path may be changed before it is brought into normal form or afterwards.** -/
theorem normal_change (p : Text) : normal (change p) = change (normal p) := by
  have hwhole := h.append_join (root_cases p) (Path.segments p)
  have hempty : change (root p ++ Text.join ['/'] (Path.segments p)) = [] ↔
      root p ++ Text.join ['/'] (Path.segments p) = [] := h.eq_iff _ (by decide)
  simp only [normal, h.root_change, h.segments, ← hwhole, List.isEmpty_iff, hempty]
  split
  · exact ((h.eq_iff _ (by decide)).mpr rfl).symm
  · rfl

end KeepsShape

/-! ### Single characters and lower case -/

theorem keepsShape_map {f : Char → Char} (hslash : ∀ c, f c = '/' ↔ c = '/')
    (hdot : ∀ c, f c = '.' ↔ c = '.') : KeepsShape (List.map f) where
  append_cons t s := by rw [List.map_append, List.map_cons, (hslash _).mpr rfl]
  slash_mem hmem := by
    obtain ⟨c, hc, hfc⟩ := List.mem_map.mp hmem
    exact (hslash c).mp hfc ▸ hc
  eq_iff t w hw := by
    obtain rfl | rfl | rfl := not_isName_iff.mp hw
    · exact List.map_eq_nil_iff
    · simp [List.map_eq_cons_iff, hdot]
    · simp [List.map_eq_cons_iff, hdot]

theorem divides_slash : Casing.Divides '/' := by decide +kernel

theorem keepsShape_lower : KeepsShape Text.lower where
  append_cons := Text.lower_append_cons divides_slash
  slash_mem := Text.mem_of_mem_lower (by decide)
  eq_iff t w hw := by
    have hdot : Casing.IsSmall '.' ∧ '.'.toNat < 0x61 := by decide +kernel
    refine Text.lower_eq_iff fun d hd => ?_
    obtain rfl | rfl | rfl := not_isName_iff.mp hw
    · cases hd
    · exact List.mem_singleton.mp hd ▸ hdot
    · simp only [List.mem_cons, List.not_mem_nil, or_false, or_self] at hd
      exact hd ▸ hdot

end IncludeTrace.Path
