import IncludeTrace.Proofs.Table
import IncludeTrace.World.Basic

/-!
# Writing files

A file that was opened and written to is found, with a beginning of what was written in it, and with all
of it if nothing is said to be missing (`World.exists_bytes?_store`). There is nothing else that writing
changes: a world agrees with the one before at every other place (`World.agreesBut_store`). The
directories stay as they are, since the directory of the file had to be there before
(`World.isDirectory_store`). So whatever is read at another place is what was read there before
(`World.read_store`). None of this depends on how the host looks paths up.
-/

namespace IncludeTrace

namespace World

variable {w w' : World} {p q r place text : Text}

/-! ### Directories -/

theorem isAtOrBelow_iff : isAtOrBelow p q = true ↔ q = p ∨ (p ++ ['/']) <+: q := by
  rw [isAtOrBelow, Bool.or_eq_true, decide_eq_true_iff, Text.startsWith, List.isPrefixOf_iff_prefix]

theorem isAtOrBelow_trans (hq : isAtOrBelow p q = true) (hr : isAtOrBelow q r = true) :
    isAtOrBelow p r = true := by
  rw [isAtOrBelow_iff] at hq hr ⊢
  obtain rfl | hq := hq
  · exact hr
  · obtain rfl | hr := hr
    · exact .inr hq
    · exact .inr (hq.trans ((List.prefix_append q ['/']).trans hr))

/-- Nothing but the root is above the root. -/
theorem eq_of_isAtOrBelow_root (hne : p ≠ []) (h : isAtOrBelow p ['/'] = true) : p = ['/'] := by
  rcases isAtOrBelow_iff.mp h with heq | hprefix
  · exact heq.symm
  · have hlength := hprefix.length_le
    rw [List.length_append, List.length_singleton] at hlength
    exact absurd (List.length_eq_zero_iff.mp (by omega)) hne

/-- Where there are directories. -/
theorem hasDirectoryAt_iff : w.hasDirectoryAt q = true ↔ q ≠ [] ∧ (q = ['/'] ∨
    ∃ d ∈ w.cwd :: w.directories ++ (w.files.map Prod.fst).map Path.directory,
      isAtOrBelow q d = true) := by
  simp only [hasDirectoryAt, Bool.and_eq_true, Bool.or_eq_true, Bool.not_eq_true', List.isEmpty_eq_false_iff,
    decide_eq_true_iff, List.any_eq_true, List.map_map]
  rfl

/-! ### What writing changes -/

/-- Two worlds **agree but at a place**: they differ in nothing but the file there, and in what was
written to it. -/
structure AgreesBut (w w' : World) (q : Text) : Prop where
  rest : w' = { w with files := w'.files, written := w'.written }
  files : ∀ p, p ≠ q → w'.files.get? p = w.files.get? p
  written : ∀ p, p ≠ q → w'.written.get? p = w.written.get? p

theorem AgreesBut.refl (w : World) (q : Text) : w.AgreesBut w q :=
  ⟨rfl, fun _ _ => rfl, fun _ _ => rfl⟩

/-- A file can be opened for writing if its name is fit and names no directory, there is a directory for
it, and nothing is denied. -/
theorem openPlace?_eq_ok_iff : w.openPlace? p = .ok place ↔ w.isFit p = true ∧ w.isDirectory p = false ∧
    p ≠ [] ∧ w.hasDirectoryAt (Path.directory (w.locate p)) = true ∧ w.host.denial? true p = none ∧
    w.locate p = place := by
  rw [openPlace?, isFit]
  cases hfit : w.host.unfit? p with
  | some reason => simp
  | none =>
    cases hdirectory : w.isDirectory p with
    | true => simp
    | false =>
      cases hparent : w.hasDirectoryAt (Path.directory (w.locate p)) with
      | false => simp
      | true => cases p <;> cases w.host.denial? true _ <;> simp

/-- What is stored is a beginning of what is written, and all of it if nothing is said to be missing. -/
theorem exists_store (w : World) (place text : Text) : ∃ bytes written,
    bytes <+: Utf8.encode text ∧ ((w.store place text).2 = none → bytes = Utf8.encode text) ∧
      (w.store place text).1 = { w with
        files := w.files.put place bytes
        written := w.written.put place written } := by
  rw [store]
  cases w.host.spill? place text with
  | none => exact ⟨_, _, List.prefix_rfl, fun _ => rfl, rfl⟩
  | some spill => exact ⟨_, _, List.take_prefix spill.kept _, nofun, rfl⟩

@[simp]
theorem host_store (w : World) (place text : Text) : (w.store place text).1.host = w.host := by
  rw [store]
  split <;> rfl

@[simp]
theorem isFit_store (w : World) (place text p : Text) : (w.store place text).1.isFit p = w.isFit p := by
  rw [isFit, host_store, isFit]

@[simp]
theorem locate_store (w : World) (place text p : Text) :
    (w.store place text).1.locate p = w.locate p := by
  rw [store]
  split <;> rfl

/-- **Writing changes the file at its place**, and nothing else. -/
theorem agreesBut_store (w : World) (place text : Text) : w.AgreesBut (w.store place text).1 place := by
  obtain ⟨bytes, written, -, -, hstore⟩ := w.exists_store place text
  rw [hstore]
  exact ⟨rfl, fun r hr => by rw [Table.get?_put, if_neg hr.symm],
    fun r hr => by rw [Table.get?_put, if_neg hr.symm]⟩

/-- **A file that was written is found.** -/
theorem exists_bytes?_store (h : w.openPlace? p = .ok place) (hend : p.endsWith ['/'] = false)
    (text : Text) : ∃ bytes, (w.store place text).1.bytes? p = some bytes ∧
      bytes <+: Utf8.encode text ∧ ((w.store place text).2 = none → bytes = Utf8.encode text) := by
  obtain ⟨hfit, -, hne, -, -, rfl⟩ := openPlace?_eq_ok_iff.mp h
  obtain ⟨bytes, written, hprefix, hall, hstore⟩ := w.exists_store (w.locate p) text
  have hfile : (w.store (w.locate p) text).1.files.get? (w.locate p) = some bytes := by
    rw [hstore, Table.get?_put, if_pos rfl]
  refine ⟨bytes, ?_, hprefix, hall⟩
  rw [bytes?, isFit_store, locate_store, hfile]
  simp [hend, hfit, hne]

/-- **Directories neither come nor go** when a file is written. -/
theorem isDirectory_store (h : w.openPlace? p = .ok place) (text r : Text) :
    (w.store place text).1.isDirectory r = w.isDirectory r := by
  obtain ⟨-, -, -, hparent, -, rfl⟩ := openPlace?_eq_ok_iff.mp h
  obtain ⟨bytes, written, -, -, hstore⟩ := w.exists_store (w.locate p) text
  suffices hsame : ∀ q, (w.store (w.locate p) text).1.hasDirectoryAt q = w.hasDirectoryAt q by
    rw [isDirectory, isDirectory, isFit_store, locate_store, hsame]
  intro q
  rw [hstore, Bool.eq_iff_iff, hasDirectoryAt_iff, hasDirectoryAt_iff, Table.names_put]
  split
  · rfl
  have hplaces : ∀ d, d ∈ w.cwd :: w.directories ++
        (w.files.map Prod.fst ++ [w.locate p]).map Path.directory ↔
      d ∈ w.cwd :: w.directories ++ (w.files.map Prod.fst).map Path.directory ∨
        d = Path.directory (w.locate p) := by
    simp [or_assoc]
  obtain ⟨-, hplace⟩ := hasDirectoryAt_iff.mp hparent
  refine and_congr_right fun hne => or_congr_right' fun hroot => ⟨?_, ?_⟩
  · rintro ⟨d, hd, hbelow⟩
    rcases (hplaces d).mp hd with hd | rfl
    · exact ⟨d, hd, hbelow⟩
    · -- the directory of the file was there, and so was what is above it
      rcases hplace with htop | ⟨d, hd, habove⟩
      · rw [htop] at hbelow
        exact absurd (eq_of_isAtOrBelow_root hne hbelow) hroot
      · exact ⟨d, hd, isAtOrBelow_trans hbelow habove⟩
  · rintro ⟨d, hd, hbelow⟩
    exact ⟨d, (hplaces d).mpr (.inl hd), hbelow⟩

/-- **What is read at another place** is what was read there before a file was written. -/
theorem read_store (h : w.openPlace? p = .ok place) (text : Text) (hr : w.locate r ≠ place) :
    (w.store place text).1.read r = w.read r := by
  have hbytes : (w.store place text).1.bytes? r = w.bytes? r := by
    rw [bytes?, bytes?, isFit_store, locate_store, (w.agreesBut_store place text).files _ hr]
  rw [read, read, isDirectory_store h, hbytes, host_store]

end World

end IncludeTrace
