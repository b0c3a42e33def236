import IncludeTrace.Proofs.Path.Spelling

/-!
# Normal forms with the same key

A path may be brought into normal form and looked up afterwards, or looked up as it is spelled. The key
that is asked for is the same (`Path.Faithful.key_normal`) if normal form, which takes no notice of
backslashes, does not get in the way of what they mean: it neither makes the path absolute nor keeps it
from being so, and no `..` takes back a piece with a backslash. Such a path is called faithful.

No current directory matters for this. A path that is not absolute is put behind the current directory,
and there its pieces do the same whether they were settled before or not (`Path.foldl_settle`).
-/

namespace IncludeTrace.Path

variable {cwd p q : Text}

/-- A path is **faithful** if its normal form is on the same root and on the same drive as the path,
with slashes for backslashes in both, and no `..` takes back a piece with a backslash. -/
structure Faithful (p : Text) : Prop where
  root_eq : root (slashed (normal p)) = root (slashed p)
  drive_eq : hasDrive (slashed (normal p)) = hasDrive (slashed p)
  takenBack : ∀ v ∈ takenBack (!(root p).isEmpty) [] (p.pieces '/'), '\\' ∉ v

instance (p : Text) : Decidable (Faithful p) :=
  decidable_of_iff (root (slashed (normal p)) = root (slashed p) ∧
      hasDrive (slashed (normal p)) = hasDrive (slashed p) ∧
      ∀ v ∈ takenBack (!(root p).isEmpty) [] (p.pieces '/'), '\\' ∉ v)
    ⟨fun ⟨hroot, hdrive, hback⟩ => ⟨hroot, hdrive, hback⟩,
      fun h => ⟨h.root_eq, h.drive_eq, h.takenBack⟩⟩

/-! ### Roots -/

/-- A rooted path is on no drive. -/
theorem hasDrive_of_startsWith (hp : p.startsWith ['/'] = true) : hasDrive p = false := by
  obtain ⟨t, rfl⟩ := List.isPrefixOf_iff_prefix.mp hp
  rw [hasDrive.eq_def]
  split
  · next heq =>
    obtain rfl := (List.cons.inj heq).1
    rfl
  · rfl

/-- Slashes stay slashes, so a root stays. -/
theorem root_slashed_ne_nil (h : root p ≠ []) : root (slashed p) ≠ [] := by
  rw [ne_eq, root_eq_nil_iff, Bool.not_eq_false] at h ⊢
  obtain ⟨t, rfl⟩ := List.isPrefixOf_iff_prefix.mp h
  rfl

/-- What stands behind a slash does not change the root, unless it begins with a slash. -/
theorem root_append_cons (hp : root p = []) (hq : root q = []) (t : Text) :
    root (t ++ '/' :: p) = root (t ++ '/' :: q) := by
  rw [root_eq_nil_iff] at hp hq
  have hhead : ∀ {s : Text}, s.startsWith ['/'] = false → s = [] ∨ ∃ c s', s = c :: s' ∧ c ≠ '/' := by
    intro s hs
    cases s with
    | nil => exact .inl rfl
    | cons c s =>
      refine .inr ⟨c, s, rfl, ?_⟩
      rintro rfl
      cases hs
  -- only the first three characters count
  rcases t with _ | ⟨a, _ | ⟨b, t⟩⟩
  · rcases hhead hp with rfl | ⟨c, s, rfl, hc⟩ <;> rcases hhead hq with rfl | ⟨d, s', rfl, hd⟩ <;>
      simp_all [root]
  · have hroot : ∀ {s : Text}, s.startsWith ['/'] = false →
        root (a :: '/' :: s) = if a = '/' then ['/', '/'] else [] := by
      intro s hs
      rcases hhead hs with rfl | ⟨c, s, rfl, hc⟩ <;> by_cases ha : a = '/' <;> simp_all [root]
    exact (hroot hp).trans (hroot hq).symm
  · rcases t with _ | ⟨c, t⟩
    · by_cases ha : a = '/' <;> by_cases hb : b = '/' <;> simp [root, ha, hb]
    · by_cases ha : a = '/' <;> by_cases hb : b = '/' <;> by_cases hc : c = '/' <;>
        simp [root, ha, hb, hc]

/-- A path behind the current directory has its normal form by what its pieces do behind others. -/
theorem normal_join_congr (cwd : Text) (hp : root p = []) (hq : root q = [])
    (hpieces : ∀ rooted before, (p.pieces '/').foldl (addSegment rooted) before =
      (q.pieces '/').foldl (addSegment rooted) before) :
    normal (join cwd p) = normal (join cwd q) := by
  have hbehind : ∀ t : Text, normal (t ++ '/' :: p) = normal (t ++ '/' :: q) := by
    intro t
    refine normal_congr (root_append_cons hp hq t) ?_
    rw [Text.pieces_append_cons, Text.pieces_append_cons, settle, settle, List.foldl_append,
      List.foldl_append, hpieces]
  simp only [join, root_eq_nil_iff.mp hp, root_eq_nil_iff.mp hq, Bool.false_eq_true, if_false]
  split
  · next hdirect =>
    rcases (Bool.or_eq_true _ _).mp hdirect with hempty | hend
    · rw [List.isEmpty_iff.mp hempty]
      exact normal_congr (hp.trans hq.symm) (hpieces _ [])
    · obtain ⟨t, rfl⟩ := List.isSuffixOf_iff_suffix.mp hend
      simpa using hbehind t
  · exact hbehind cwd

/-! ### Keys of normal forms -/

namespace Faithful

variable (h : Faithful p)

include h

/-- What the pieces of a path and of its normal form settle to where the path is rooted or not. -/
theorem settle_pieces : settle (!(root p).isEmpty) (Text.pieces '/' (slashed (normal p))) =
    settle (!(root p).isEmpty) (Text.pieces '/' (slashed p)) :=
  settle_map_normal rfl rfl fun v hv => slashed_of_not_mem (h.takenBack v hv)

/-- The pieces of a path that is not rooted do the same behind others as those of its normal form. -/
theorem foldl_pieces (hroot : root p = []) (rooted : Bool) (before : List Text) :
    (Text.pieces '/' (slashed (normal p))).foldl (addSegment rooted) before =
      (Text.pieces '/' (slashed p)).foldl (addSegment rooted) before := by
  have hsettle := h.settle_pieces
  rw [hroot] at hsettle
  rw [foldl_settle, foldl_settle rooted before (Text.pieces '/' (slashed p))]
  exact congrArg (fun ws => ws.reverse.foldl (addSegment rooted) before) hsettle

theorem normal_slashed_normal : normal (slashed (normal p)) = normal (slashed p) := by
  refine normal_congr h.root_eq ?_
  by_cases hroot : root p = []
  · exact h.foldl_pieces hroot _ []
  · have hsettle := h.settle_pieces
    have hslashed := root_slashed_ne_nil hroot
    rw [List.isEmpty_eq_false_iff.mpr hroot] at hsettle
    rw [List.isEmpty_eq_false_iff.mpr hslashed]
    exact hsettle

end Faithful

/-- With slashes for backslashes, a path is absolute if it has a root or a drive. -/
theorem isAbsolute_slashed_eq (p : Text) :
    isAbsolute (slashed p) = (!(root (slashed p)).isEmpty || hasDrive (slashed p)) := by
  rw [isAbsolute, isForeign, slashed_slashed]
  by_cases hroot : root (slashed p) = []
  · have hslash := root_eq_nil_iff.mp hroot
    have hshare : (slashed p).startsWith ['/', '/'] = false := by
      rw [Bool.eq_false_iff] at hslash ⊢
      intro hstarts
      obtain ⟨t, ht⟩ := List.isPrefixOf_iff_prefix.mp hstarts
      rw [← ht] at hslash
      exact hslash rfl
    rw [hslash, hshare, hroot]
    simp
  · have hslash : (slashed p).startsWith ['/'] = true := by
      rwa [root_eq_nil_iff, Bool.not_eq_false] at hroot
    rw [hslash, List.isEmpty_eq_false_iff.mpr hroot]
    rfl

/-- The key of a path that is not absolute is that of its place in the current directory. -/
theorem key_of_not_isAbsolute (cwd : Text) (h : isAbsolute (slashed p) = false) :
    key cwd p = (slashed (normal (join cwd (slashed p)))).lower := by
  rw [isAbsolute, isForeign_slashed, Bool.or_eq_false_iff] at h
  rw [key, if_neg (by simp [h.2]), absolute]

/-- The key of a path depends on its root and its drive, on its normal form, and if it is not rooted, on
what its pieces do behind others. -/
theorem key_congr (cwd : Text) (hroot : root (slashed p) = root (slashed q))
    (hdrive : hasDrive (slashed p) = hasDrive (slashed q))
    (hnormal : normal (slashed p) = normal (slashed q))
    (hpieces : root (slashed q) = [] → ∀ rooted before,
      (Text.pieces '/' (slashed p)).foldl (addSegment rooted) before =
        (Text.pieces '/' (slashed q)).foldl (addSegment rooted) before) :
    key cwd p = key cwd q := by
  have habsolute : isAbsolute (slashed p) = isAbsolute (slashed q) := by
    rw [isAbsolute_slashed_eq, isAbsolute_slashed_eq, hroot, hdrive]
  cases hq : isAbsolute (slashed q) with
  | true => rw [key_of_isAbsolute cwd (habsolute.trans hq), key_of_isAbsolute cwd hq, hnormal]
  | false =>
    rw [key_of_not_isAbsolute cwd (habsolute.trans hq), key_of_not_isAbsolute cwd hq]
    rw [isAbsolute_slashed_eq, Bool.or_eq_false_iff, Bool.not_eq_false', List.isEmpty_iff] at hq
    rw [normal_join_congr cwd (hroot.trans hq.1) hq.1 (hpieces hq.1)]

/-- **The normal form of a faithful path has the key of the path**, in every current directory. -/
theorem Faithful.key_normal (h : Faithful p) (cwd : Text) : key cwd (normal p) = key cwd p := by
  refine key_congr cwd h.root_eq h.drive_eq h.normal_slashed_normal fun hslashed => ?_
  have hroot : root p = [] := by
    by_contra hne
    exact root_slashed_ne_nil hne hslashed
  exact h.foldl_pieces hroot

/-- A rooted path without backslashes is faithful. -/
theorem faithful_of_rooted (hrooted : p.startsWith ['/'] = true) (hback : '\\' ∉ p) :
    Faithful p := by
  have hnormal : '\\' ∉ normal p := backslash_not_mem_normal hback
  refine ⟨?_, ?_, fun v hv hmem => ?_⟩
  · rw [slashed_of_not_mem hnormal, slashed_of_not_mem hback, root_normal]
  · rw [slashed_of_not_mem hnormal, slashed_of_not_mem hback, hasDrive_of_startsWith hrooted,
      hasDrive_of_startsWith (startsWith_normal hrooted)]
  · exact hback ((Text.of_mem_pieces (takenBack_subset hv)).2 _ hmem)

end IncludeTrace.Path
