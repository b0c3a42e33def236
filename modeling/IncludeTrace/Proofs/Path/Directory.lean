import IncludeTrace.Proofs.Path.Change
import IncludeTrace.Proofs.Path.Names
import Mathlib.Data.List.TakeWhile

/-!
# The directory of a file and of its key

The directory of a file is worked out from the spelling of the file, while its key is made apart from it.
For a file on a drive or a network share both come to the same: the directory is spelled like that of the
key, up to case. For another file they part where a backslash is at the end of the path. It is a slash in
the key, but the directory ends in front of the last slash of the path as it was
(`Path.sourceDirectory_agrees_iff`).

Below, a path is a root with segments behind it; its directory has all but the last of them
(`Path.directory_append_join`).
-/

namespace IncludeTrace

namespace Text

variable {separator : Char} {t s : Text} {ts : List Text}

theorem join_concat (hne : ts ≠ []) (separator t : Text) :
    join separator (ts ++ [t]) = join separator ts ++ separator ++ t := by
  induction ts with
  | nil => exact absurd rfl hne
  | cons s ts ih =>
    by_cases hts : ts = []
    · subst hts
      simp [join]
    · rw [List.cons_append, join_cons_of_ne_nil (by simp), ih hts, join_cons_of_ne_nil hts]
      simp only [List.append_assoc]

theorem throughLast_append (h : separator ∉ s) (t : Text) :
    throughLast separator (t ++ s) = throughLast separator t := by
  have hs : ∀ c ∈ s.reverse, decide (c ≠ separator) = true := by
    simpa using fun c hc => ne_of_mem_of_not_mem hc h
  rw [throughLast, List.reverse_append, List.dropWhile_append_of_pos hs, throughLast]

theorem throughLast_concat (separator : Char) (t : Text) :
    throughLast separator (t ++ [separator]) = t ++ [separator] := by
  simp [throughLast]

theorem afterLast_of_not_mem (h : separator ∉ t) : afterLast separator t = t := by
  have ht : ∀ c ∈ t.reverse, decide (c ≠ separator) = true := by
    simpa using fun c hc => ne_of_mem_of_not_mem hc h
  rw [afterLast, List.takeWhile_eq_self_iff.mpr ht, List.reverse_reverse]

theorem afterLast_append_cons (h : separator ∉ s) (t : Text) :
    afterLast separator (t ++ separator :: s) = s := by
  have hs : ∀ c ∈ s.reverse, decide (c ≠ separator) = true := by
    simpa using fun c hc => ne_of_mem_of_not_mem hc h
  rw [afterLast, List.reverse_append, List.reverse_cons, List.append_assoc,
    List.takeWhile_append_of_pos hs]
  simp

end Text

namespace Path

variable {ws : List Text} {cwd p r w : Text}

/-! ### Segments of directories and base names -/

/-- What stands before the last segment: the root, or more segments and a slash. -/
theorem exists_append_join_concat (r : Text) (ws : List Text) (w : Text) : ∃ front,
     r ++ Text.join ['/'] (ws ++ [w]) = front ++ w ∧
      (ws = [] ∧ front = r ∨ ws ≠ [] ∧ front = r ++ Text.join ['/'] ws ++ ['/']) := by
  by_cases hws : ws = []
  · subst hws
    exact ⟨r, by simp [Text.join], .inl ⟨rfl, rfl⟩⟩
  · refine ⟨_, ?_, .inr ⟨hws, rfl⟩⟩
    rw [Text.join_concat hws]
    simp only [List.append_assoc]

/-- A single slash that a path ends in is dropped, if there is a segment in front of it. -/
theorem dropEndSlashes_append (hw : w ≠ [] ∧ '/' ∉ w) (t : Text) :
    dropEndSlashes (t ++ w ++ ['/']) = t ++ w := by
  obtain ⟨v, c, rfl⟩ := (List.eq_nil_or_concat' w).resolve_left hw.1
  have hc : c ≠ '/' := fun e => hw.2 (by simp [e])
  simp [dropEndSlashes, hc]

/-- **The directory of a path has all of its segments but the last.** -/
theorem directory_append_join (hr : r = [] ∨ r = ['/'] ∨ r = ['/', '/'])
    (hws : ∀ w ∈ ws, w ≠ [] ∧ '/' ∉ w) :
    directory (r ++ Text.join ['/'] ws) = r ++ Text.join ['/'] ws.dropLast := by
  have hroot : directory r = r := by rcases hr with rfl | rfl | rfl <;> decide
  rcases List.eq_nil_or_concat' ws with rfl | ⟨us, w, rfl⟩
  · simpa [Text.join] using hroot
  · obtain ⟨hus, hw⟩ := List.forall_mem_append.mp hws
    obtain ⟨front, hfront, hcases⟩ := exists_append_join_concat r us w
    rw [hfront, List.dropLast_concat, directory,
      Text.throughLast_append (hw w List.mem_cons_self).2, ← directory]
    rcases hcases with ⟨rfl, rfl⟩ | ⟨hne, rfl⟩
    · simpa [Text.join] using hroot
    · -- the slash in front of the last segment goes, because there is another segment before it
      obtain ⟨vs, v, rfl⟩ := (List.eq_nil_or_concat' us).resolve_left hne
      obtain ⟨front, hfront, -⟩ := exists_append_join_concat r vs v
      rw [directory, Text.throughLast_concat, hfront, dropEndSlashes_append (hus v (by simp))]

/-- The base name of a path is its last segment. -/
theorem baseName_append_join (hr : r = [] ∨ r = ['/'] ∨ r = ['/', '/'])
    (hw : '/' ∉ w) (ws : List Text) :
    baseName (r ++ Text.join ['/'] (ws ++ [w])) = w := by
  obtain ⟨front, hfront, hcases⟩ := exists_append_join_concat r ws w
  rw [hfront, baseName]
  rcases hcases with ⟨-, rfl⟩ | ⟨-, rfl⟩
  · rcases hr with rfl | rfl | rfl
    · exact Text.afterLast_of_not_mem hw
    · exact Text.afterLast_append_cons hw []
    · exact Text.afterLast_append_cons hw ['/']
  · rw [List.append_assoc, List.singleton_append, Text.afterLast_append_cons hw]

/-- The directory of a normal form may be changed before it is taken or afterwards. -/
theorem KeepsShape.directory_normal {change : Text → Text} (h : KeepsShape change) (p : Text) :
    directory (change (normal p)) = change (directory (normal p)) := by
  obtain ⟨here, hwhole, -, hsegments⟩ := exists_normal p
  have hchanged : ∀ w ∈ (here ++ Path.segments p).map change, w ≠ [] ∧ '/' ∉ w := by
    simp only [List.forall_mem_map]
    exact fun w hw => ⟨fun e => (hsegments w hw).1 ((h.eq_iff w (by decide)).mp e),
      fun hmem => (hsegments w hw).2 (h.slash_mem hmem)⟩
  rw [hwhole, h.append_join (root_cases p), directory_append_join (root_cases p) hchanged,
    directory_append_join (root_cases p) hsegments, h.append_join (root_cases p), List.map_dropLast]

theorem one_lt_length_parts (h : '\\' ∈ w) : 1 < (parts w).length := by
  obtain ⟨a, b, rfl⟩ := List.mem_iff_append.mp h
  have hsplit : slashed (a ++ '\\' :: b) = slashed a ++ '/' :: slashed b := by simp [slashed]
  have ha := List.length_pos_of_ne_nil (Text.pieces_ne_nil '/' (slashed a))
  have hb := List.length_pos_of_ne_nil (Text.pieces_ne_nil '/' (slashed b))
  rw [parts, hsplit, Text.pieces_append_cons, List.length_append]
  omega

/-! ### The directory of a file -/

theorem directory_subset (p : Text) : directory p ⊆ p := by
  have hend : ∀ q : Text, dropEndSlashes q ⊆ q := by
    intro q c hc
    rw [dropEndSlashes] at hc
    split at hc
    · exact hc
    · exact List.mem_reverse.mp ((List.dropWhile_sublist _).subset (List.mem_reverse.mp hc))
  intro c hc
  have hthrough := hend _ hc
  exact List.mem_reverse.mp ((List.dropWhile_sublist _).subset (List.mem_reverse.mp hthrough))

/-- A file on a drive or a network share is in the directory that its key is in. -/
theorem sourceDirectory_of_isForeign (cwd : Text) (h : isForeign p = true) :
    (slashed (sourceDirectory cwd p)).lower = directory (key cwd p) := by
  have hback : '\\' ∉ directory (normal (slashed p)) := fun hmem =>
    backslash_not_mem_normal (backslash_not_mem_slashed p) (directory_subset _ hmem)
  rw [sourceDirectory, if_pos h, key, if_pos h, slashed_of_not_mem hback,
    keepsShape_lower.directory_normal]

/-- Where a root has clean names behind it, the directory may be taken before backslashes become slashes
or afterwards just if the last name has none. -/
theorem lower_slashed_directory_iff (hr : r = ['/'] ∨ r = ['/', '/'])
    (hnames : ∀ w ∈ ws, IsName w ∧ '/' ∉ w ∧ Clean w) :
    (slashed (directory (r ++ Text.join ['/'] ws))).lower =
        directory (slashed (r ++ Text.join ['/'] ws)).lower ↔
      '\\' ∉ baseName (r ++ Text.join ['/'] ws) := by
  have hparts : ∀ v ∈ ws.flatMap parts, IsName v := isName_of_mem_flatMap_parts hnames
  have hslash : ∀ v ∈ ws.flatMap parts, '/' ∉ v := fun _ => slash_not_mem_of_mem_parts
  have hbefore : slashed (directory (r ++ Text.join ['/'] ws)) =
      r ++ Text.join ['/'] (ws.dropLast.flatMap parts) := by
    rw [directory_append_join (.inr hr) fun w hw => ⟨(hnames w hw).1.1, (hnames w hw).2.1⟩,
      slashed_append_join hr fun w hw => (hnames w (List.dropLast_subset ws hw)).2.1]
  have hafter : directory (slashed (r ++ Text.join ['/'] ws)).lower =
      (r ++ Text.join ['/'] (ws.flatMap parts).dropLast).lower := by
    rw [slashed_append_join hr fun w hw => (hnames w hw).2.1, ← normal_append_join hr hparts hslash,
      keepsShape_lower.directory_normal, normal_append_join hr hparts hslash,
      directory_append_join (.inr hr) fun v hv => ⟨(hparts v hv).1, hslash v hv⟩]
  rw [hbefore, hafter]
  rcases List.eq_nil_or_concat' ws with rfl | ⟨us, w, rfl⟩
  · refine iff_of_true rfl ?_
    rcases hr with rfl | rfl <;> decide
  · have hw : '/' ∉ w := (hnames w (by simp)).2.1
    have hlength : ∀ vs ⊆ (us ++ [w]).flatMap parts,
        (segments (r ++ Text.join ['/'] vs).lower).length = vs.length := by
      intro vs hvs
      rw [keepsShape_lower.segments, List.length_map, segments_append_join hr
        (fun v hv => hparts v (hvs hv)) fun v hv => hslash v (hvs hv)]
    rw [baseName_append_join (.inr hr) hw, List.dropLast_concat]
    refine ⟨fun heq hback => ?_, fun hback => ?_⟩
    · -- the last name falls into several, and the directory of what is in slashes keeps some of them
      have hcount := hlength _ (List.dropLast_subset _)
      rw [← heq, hlength _ (by simp), List.flatMap_append, List.length_dropLast, List.length_append,
        List.flatMap_singleton] at hcount
      have hmany := one_lt_length_parts hback
      omega
    · rw [List.flatMap_append, List.flatMap_singleton, parts_of_not_mem hw hback, List.dropLast_concat]

/-- **The directory of a file is that of its key**, up to case and with slashes for backslashes, if the
file is on a drive or a network share. Where the current directory is plain and the path is tidy, the
directory of another file is that of its key just if its base name has no backslash. -/
theorem sourceDirectory_agrees (cwd p : Text) :
    (isForeign p = true → (slashed (sourceDirectory cwd p)).lower = directory (key cwd p)) ∧
      (isForeign p = false → Plain cwd → Tidy p →
        ((slashed (sourceDirectory cwd p)).lower = directory (key cwd p) ↔
          '\\' ∉ baseName (absolute cwd p))) := by
  refine ⟨sourceDirectory_of_isForeign cwd, fun hforeign hcwd hp => ?_⟩
  have hkey : key cwd p = (slashed (absolute cwd p)).lower := by
    rw [key, hforeign, slashed_absolute_slashed hcwd.1 hp hforeign]
    rfl
  have hplace : absolute cwd p = root (join cwd p) ++ Text.join ['/'] (segments (join cwd p)) :=
    normal_of_root (root_join_ne_nil hcwd.1 p)
  rw [sourceDirectory, hforeign, if_neg Bool.false_ne_true, hkey, hplace]
  exact lower_slashed_directory_iff (root_of_startsWith (startsWith_join hcwd.1 p))
    (of_mem_segments_join hcwd hp.1)

/-- A file with a backslash in front of its last slash, and one on a drive with a `..` behind one. -/
theorem sourceDirectory_agrees_mixed :
    let cwd : Text := "/Work".toList
    let p : Text := "lib/../Inc\\sub/A.h".toList
    let q : Text := "C:\\Src\\../Lib\\A.h".toList
    (slashed (sourceDirectory cwd p)).lower = directory (key cwd p) ∧
      directory (key cwd p) = "/work/inc/sub".toList ∧
      (slashed (sourceDirectory cwd q)).lower = directory (key cwd q) ∧
      directory (key cwd q) = "c:/lib".toList := by
  intro cwd p q
  have hplace := ((sourceDirectory_agrees cwd p).2 (by decide +kernel) (by decide +kernel)
    (by decide +kernel)).mpr (by decide +kernel)
  have hdrive := (sourceDirectory_agrees cwd q).1 (by decide +kernel)
  exact ⟨hplace, by decide +kernel, hdrive, by decide +kernel⟩

/-- **A backslash at the end of a path** is not taken for a slash when the directory is worked out. -/
theorem sourceDirectory_backslash :
    let cwd : Text := "/work".toList
    let p : Text := "src\\a.cpp".toList
    sourceDirectory cwd p = "/work".toList ∧ directory (key cwd p) = "/work/src".toList ∧
      (slashed (sourceDirectory cwd p)).lower ≠ directory (key cwd p) := by
  decide +kernel

end Path

end IncludeTrace
