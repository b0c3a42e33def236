import IncludeTrace.Path.Key
import IncludeTrace.Proofs.Path.Normal
import IncludeTrace.Proofs.Text.Casing

/-!
# Spellings of one file

The key of a path does not depend on the separators it is spelled with (`Path.key_slashed`). What else
is made of a path does: the spelling under which it is shown is brought into normal form before its
backslashes count as slashes, the key afterwards. `Path.Steady` says when this makes no difference; then
the shown spelling has the key of the path itself, in every current directory (`Path.key_shown`).
-/

namespace IncludeTrace.Path

variable {cwd p q : Text}

/-! ### Slashes for backslashes -/

theorem backslash_not_mem_slashed (p : Text) : '\\' ∉ slashed p := by
  intro h
  obtain ⟨c, -, hc⟩ := List.mem_map.mp h
  split at hc
  · exact absurd hc (by decide)
  · next hne => exact hne hc

theorem slashed_of_not_mem (h : '\\' ∉ p) : slashed p = p := by
  refine (List.map_congr_left fun c hc => if_neg ?_).trans (List.map_id' p)
  rintro rfl
  exact h hc

@[simp]
theorem slashed_slashed (p : Text) : slashed (slashed p) = slashed p :=
  slashed_of_not_mem (backslash_not_mem_slashed p)

@[simp]
theorem isForeign_slashed (p : Text) : isForeign (slashed p) = isForeign p := by
  rw [isForeign, slashed_slashed, isForeign]

/-- **The key of a path does not depend on its separators.** -/
@[simp]
theorem key_slashed (cwd p : Text) : key cwd (slashed p) = key cwd p := by
  rw [key, isForeign_slashed, slashed_slashed, key]

theorem isAbsolute_slashed (h : isAbsolute p = true) : isAbsolute (slashed p) = true := by
  rw [isAbsolute, Bool.or_eq_true] at h ⊢
  rw [isForeign_slashed]
  refine h.imp_left fun h => ?_
  obtain ⟨t, rfl⟩ := List.isPrefixOf_iff_prefix.mp h
  rfl

theorem backslash_not_mem_normal (h : '\\' ∉ p) : '\\' ∉ normal p := by
  intro hmem
  obtain e | e | hp := mem_normal hmem
  · exact absurd e (by decide)
  · exact absurd e (by decide)
  · exact h hp

/-- No key has a backslash. -/
theorem backslash_not_mem_key (cwd p : Text) : '\\' ∉ key cwd p := by
  intro h
  rw [key] at h
  split at h
  · exact backslash_not_mem_normal (backslash_not_mem_slashed p) (Text.mem_of_mem_lower (by decide) h)
  · exact backslash_not_mem_slashed _ (Text.mem_of_mem_lower (by decide) h)

@[simp]
theorem slashed_key (cwd p : Text) : slashed (key cwd p) = key cwd p :=
  slashed_of_not_mem (backslash_not_mem_key cwd p)

/-- A rooted path stays where it is. -/
theorem join_of_startsWith (hp : p.startsWith ['/'] = true) : join cwd p = p := if_pos hp

/-- The key of a path that is absolute in slashes does not depend on the current directory. -/
theorem key_of_isAbsolute (cwd : Text) (h : isAbsolute (slashed p) = true) :
    key cwd p = (normal (slashed p)).lower := by
  rw [key]
  split
  · rfl
  · next hforeign =>
    have hrooted : (slashed p).startsWith ['/'] = true := by
      simpa [isAbsolute, hforeign] using h
    rw [absolute, join_of_startsWith hrooted,
      slashed_of_not_mem (backslash_not_mem_normal (backslash_not_mem_slashed p))]

theorem slashed_join (hcwd : '\\' ∉ cwd) (h : (slashed p).startsWith ['/'] = false) :
    slashed (join cwd p) = join cwd (slashed p) := by
  have hp : p.startsWith ['/'] = false := by
    rw [Bool.eq_false_iff] at h ⊢
    intro hstarts
    obtain ⟨t, rfl⟩ := List.isPrefixOf_iff_prefix.mp hstarts
    exact h rfl
  have happend : ∀ t, slashed (cwd ++ t) = cwd ++ slashed t := fun t => by
    rw [slashed, List.map_append, ← slashed, slashed_of_not_mem hcwd, slashed]
  simp only [join, hp, h, Bool.false_eq_true, if_false]
  split
  · exact happend p
  · exact happend ('/' :: p)

/-- The key of another path is that of its place in the current directory. -/
theorem key_of_relative (hcwd : '\\' ∉ cwd) (h : isAbsolute (slashed p) = false) :
    key cwd p = (normal (slashed (join cwd p))).lower := by
  rw [isAbsolute, isForeign_slashed, Bool.or_eq_false_iff] at h
  rw [key, if_neg (by simp [h.2]), absolute, slashed_join hcwd h.1, slashed_of_not_mem]
  rw [← slashed_join hcwd h.1]
  exact backslash_not_mem_normal (backslash_not_mem_slashed _)

/-! ### Steady spellings -/

/-- A spelling is **steady** in a directory if it is absolute, or its backslashes cannot be taken for
anything else when it is joined to the directory: the directory is rooted and has none, and of the
pieces of the path between slashes, none begins with a backslash and none with one comes before a
`..`. -/
def Steady (cwd p : Text) : Prop :=
  isAbsolute p = true ∨
    cwd.startsWith ['/'] = true ∧ '\\' ∉ cwd ∧ (∀ w ∈ p.pieces '/', w.head? ≠ some '\\') ∧
      (p.pieces '/').Pairwise fun v w => w = ['.', '.'] → '\\' ∉ v

instance (cwd p : Text) : Decidable (Steady cwd p) :=
  inferInstanceAs (Decidable (isAbsolute p = true ∨
    cwd.startsWith ['/'] = true ∧ '\\' ∉ cwd ∧ (∀ w ∈ p.pieces '/', w.head? ≠ some '\\') ∧
      (p.pieces '/').Pairwise fun v w => w = ['.', '.'] → '\\' ∉ v))

/-- What `normal_map_normal` says of slashes for backslashes. -/
theorem normal_slashed_normal (hp : p.startsWith ['/'] = true)
    (hhead : ∀ w ∈ p.pieces '/', w.head? ≠ some '\\')
    (hback : (p.pieces '/').Pairwise fun v w => w = ['.', '.'] → '\\' ∉ v) :
    normal (slashed (normal p)) = normal (slashed p) := by
  refine normal_map_normal rfl rfl hp (fun w hw c hc e => ?_)
    (hback.imp fun h e => slashed_of_not_mem (h e))
  split at e
  · next hcb => exact hhead w hw (hcb ▸ hc)
  · exact (Text.of_mem_pieces hw).1 (e ▸ List.mem_of_head? hc)

/-- A path that is not rooted comes behind a directory with a slash between them, which may be the one
that the directory ends in. -/
theorem exists_join_eq {directory : Text} (hne : directory ≠ []) : ∃ front : Text,
    (directory = front ∨ directory = front ++ ['/']) ∧
      ∀ p : Text, p.startsWith ['/'] = false → join directory p = front ++ '/' :: p := by
  have hempty : directory.isEmpty = false := by simpa using hne
  by_cases hend : directory.endsWith ['/'] = true
  · obtain ⟨front, rfl⟩ := List.isSuffixOf_iff_suffix.mp hend
    refine ⟨front, .inr rfl, fun p hp => ?_⟩
    simp only [join, hp, hend, Bool.or_true, Bool.false_eq_true, if_false, if_true,
      List.append_assoc, List.singleton_append]
  · refine ⟨directory, .inl rfl, fun p hp => ?_⟩
    simp only [join, hp, hempty, hend, Bool.or_self, Bool.false_eq_true, if_false]

/-- A path that is not rooted is joined to a rooted directory behind a slash, and the result is rooted.
The pieces in front come from the directory. -/
theorem exists_join (hcwd : cwd.startsWith ['/'] = true) : ∃ front : Text,
    front.pieces '/' ⊆ cwd.pieces '/' ∧ ∀ p : Text, p.startsWith ['/'] = false →
      join cwd p = front ++ '/' :: p ∧ (join cwd p).startsWith ['/'] = true := by
  obtain ⟨t, rfl⟩ := List.isPrefixOf_iff_prefix.mp hcwd
  obtain ⟨front, hfront, hjoin⟩ := exists_join_eq (List.cons_ne_nil '/' t)
  refine ⟨front, ?_, fun p hp => ⟨hjoin p hp, ?_⟩⟩
  · rcases hfront with hfront | hfront
    · exact hfront ▸ List.Subset.refl _
    · rw [List.singleton_append, hfront, Text.pieces_append_cons]
      exact List.subset_append_left _ _
  · rw [List.singleton_append, hjoin p hp]
    -- the slash may be the only one
    cases front with
    | nil => rfl
    | cons c rest =>
      obtain rfl : '/' = c := by
        rcases hfront with hfront | hfront <;> exact (List.cons.inj hfront).1
      rfl

theorem startsWith_slashed (hp : p.startsWith ['/'] = false)
    (hhead : ∀ w ∈ p.pieces '/', w.head? ≠ some '\\') : (slashed p).startsWith ['/'] = false := by
  cases p with
  | nil => rfl
  | cons c t =>
    have hslash : c ≠ '/' := by
      rintro rfl
      cases hp
    have hback : c ≠ '\\' := by
      rintro rfl
      obtain ⟨w, hw, hwc⟩ := Text.exists_piece_of_ne hslash t
      exact hhead w hw hwc
    simp [slashed, Text.startsWith, List.isPrefixOf, hback, Ne.symm hslash]

/-- **A file is shown under a spelling with its key**, if it was first named by a steady one. -/
theorem key_shown (h : Steady cwd p) (cwd' : Text) : key cwd' (shown cwd p) = key cwd p := by
  by_cases hp : isAbsolute p = true
  · rw [shown, if_pos hp, key_of_isAbsolute cwd' (isAbsolute_slashed hp),
      key_of_isAbsolute cwd (isAbsolute_slashed hp)]
  · obtain ⟨hrooted, hcwd, hhead, hback⟩ := h.resolve_left hp
    rw [Bool.not_eq_true, isAbsolute, Bool.or_eq_false_iff] at hp
    have hrelative : isAbsolute (slashed p) = false := by
      rw [isAbsolute, isForeign_slashed, hp.2, startsWith_slashed hp.1 hhead]
      rfl
    obtain ⟨front, hfront, hjoins⟩ := exists_join hrooted
    obtain ⟨hplace, hjoin⟩ := hjoins p hp.1
    have hpieces : (join cwd p).pieces '/' = front.pieces '/' ++ p.pieces '/' := by
      rw [hplace, Text.pieces_append_cons]
    -- the pieces of the directory have no backslash, so all of them meet what is asked of the path
    have hclean : ∀ w ∈ front.pieces '/', '\\' ∉ w := fun w hw hmem =>
      hcwd ((Text.of_mem_pieces (hfront hw)).2 _ hmem)
    have hheads : ∀ w ∈ (join cwd p).pieces '/', w.head? ≠ some '\\' := by
      rw [hpieces]
      refine List.forall_mem_append.mpr ⟨fun w hw e => ?_, hhead⟩
      exact hclean w hw (List.mem_of_head? e)
    have hbacks : ((join cwd p).pieces '/').Pairwise fun v w => w = ['.', '.'] → '\\' ∉ v := by
      rw [hpieces, List.pairwise_append]
      exact ⟨List.pairwise_of_forall_mem_list fun v hv _ _ _ => hclean v hv, hback,
        fun v hv _ _ _ => hclean v hv⟩
    have habsolute : isAbsolute (normal (join cwd p)) = true := by
      rw [isAbsolute, startsWith_normal hjoin]
      rfl
    rw [shown, if_neg (by simp [isAbsolute, hp]), absolute,
      key_of_isAbsolute cwd' (isAbsolute_slashed habsolute),
      normal_slashed_normal hjoin hheads hbacks, key_of_relative hcwd hrelative]

end IncludeTrace.Path
