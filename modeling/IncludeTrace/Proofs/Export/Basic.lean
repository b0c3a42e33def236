import IncludeTrace.Export.Basic
import IncludeTrace.Proofs.World.Writing

/-!
# Exported files

An export that succeeds leaves the text that the library was to write, in UTF-8, in the file that was
chosen: `Graph.exists_text_of_written`. The name of this file is the one that was given, unless the
format falls back to GraphML (`Export.name_target`). Such an export took its course to the end, which it
does only if nothing failed on the way (`Export.of_take_eq_none`), and could announce it
(`Graph.of_written`).
-/

namespace IncludeTrace

namespace Export

variable {filename name : Text} {w w' : World} {c : Course}

/-- The name of a file with an extension does not end in a slash. -/
theorem endsWith_of_extension (h : Path.extension filename ≠ []) :
    filename.endsWith ['/'] = false := by
  rw [Bool.eq_false_iff]
  intro hend
  obtain ⟨t, rfl⟩ := List.isSuffixOf_iff_suffix.mp hend
  refine h ?_
  simp [Path.extension, Path.baseName, Text.afterLast]

/-- The name that was given is kept unless the format is GraphML. -/
theorem name_target (h : (target filename).1 ≠ .graphMl) : (target filename).2.1 = filename := by
  simp only [target] at h ⊢
  split at h
  · rfl
  · exact absurd rfl h

/-- The name of the file that is written does not end in a slash. -/
theorem endsWith_target (filename : Text) : (target filename).2.1.endsWith ['/'] = false := by
  have hnone : Format.ofExtension? (Text.lower []) = none := by decide
  cases h : Format.ofExtension? (Path.extension filename).lower with
  | some f =>
    rw [target, h]
    refine endsWith_of_extension fun hextension => ?_
    rw [hextension, hnone] at h
    cases h
  | none =>
    rw [target, h, Bool.eq_false_iff]
    intro hend
    obtain ⟨t, ht⟩ := List.isSuffixOf_iff_suffix.mp hend
    have hlast := congrArg List.getLast? ht
    rw [List.getLast?_append, List.getLast?_append] at hlast
    exact absurd (Option.some.inj hlast) (by decide)

/-- **What comes of a course.** Nothing happens if it keeps the file closed or the system does not open
it; otherwise the text is stored, and the first failure counts. -/
theorem take_cases (w : World) (name : Text) (c : Course) :
    (((∃ f, c = .closed f) ∨ ∃ refusal, w.openPlace? name = .error refusal) ∧
      ∃ f, take w name c = (w, some f)) ∨
    ∃ text f place, c = .opened text f ∧ w.openPlace? name = .ok place ∧
      take w name c = ((w.store place text).1, ((w.store place text).2.map .other).or f) := by
  cases c with
  | closed f => exact .inl ⟨.inl ⟨f, rfl⟩, f, rfl⟩
  | opened text f =>
    cases hopen : w.openPlace? name with
    | error refusal => exact .inl ⟨.inr ⟨refusal, rfl⟩, _, by rw [take, hopen]⟩
    | ok place => exact .inr ⟨text, f, place, rfl, rfl, by rw [take, hopen]⟩

/-- **A course ends well** only if it opens the file and does not fail, the system opens the file, and
all of the text is stored. -/
theorem of_take_eq_none (h : take w name c = (w', none)) : ∃ text place, c = .opened text none ∧
    w.openPlace? name = .ok place ∧ w.store place text = (w', none) := by
  obtain ⟨-, f, hf⟩ | ⟨text, f, place, rfl, hopen, htaken⟩ := take_cases w name c
  · cases hf.symm.trans h
  · obtain ⟨rfl, hnone⟩ := Prod.mk.inj (htaken.symm.trans h)
    obtain ⟨hstored, rfl⟩ := Option.or_eq_none_iff.mp hnone
    exact ⟨text, place, rfl, hopen, Prod.ext rfl (Option.map_eq_none_iff.mp hstored)⟩

variable {host : Host} {p : Palette} {before : List Emission} {taken : World × Option Failure}

theorem world_conclude (host : Host) (p : Palette) (name : Text) (before : List Emission)
    (taken : World × Option Failure) : (conclude host p name before taken).world = taken.1 := by
  rcases taken with ⟨w', f | f⟩ <;> rfl

/-- What succeeds did not fail, can be announced, and is announced last. -/
theorem of_written_conclude (h : (conclude host p name before taken).written = true) :
    taken.2 = none ∧ host.unprintable? (p.successLine false (success name)) = none ∧
      (conclude host p name before taken).emissions.getLast? =
        some (.out (p.successLine false (success name))) := by
  rcases taken with ⟨w', f | f⟩
  · simp only [conclude, announce] at h ⊢
    cases hprint : host.unprintable? (p.successLine false (success name)) with
    | some reason =>
      rw [hprint] at h
      cases h
    | none => simp
  · cases h

end Export

namespace Graph

variable {g : Graph} {w : World} {p : Palette} {dotWriter : Bool} {filename : Text}

/-- Whatever an export says, its world is the one after the course. -/
theorem world_exportTo (g : Graph) (w : World) (p : Palette) (dotWriter : Bool) (filename : Text) :
    (g.exportTo w p dotWriter filename).world =
      (Export.take w (Export.target filename).2.1 (g.exportCourse w dotWriter filename)).1 :=
  Export.world_conclude ..

/-- An export that succeeds took its course to the end and announced the success. -/
theorem of_written (h : (g.exportTo w p dotWriter filename).written = true) :
    let name := (Export.target filename).2.1
    Export.take w name (g.exportCourse w dotWriter filename) =
        ((g.exportTo w p dotWriter filename).world, none) ∧
      (g.exportTo w p dotWriter filename).emissions.getLast? =
        some (.out (p.successLine false (Export.success name))) := by
  obtain ⟨hnone, -, hlast⟩ := Export.of_written_conclude h
  exact ⟨Prod.ext (world_exportTo ..).symm hnone, hlast⟩

/-- **An export that succeeds leaves its text in the file.** -/
theorem exists_text_of_written (h : (g.exportTo w p dotWriter filename).written = true) :
    ∃ text, g.exportCourse w dotWriter filename = .opened text none ∧
      (g.exportTo w p dotWriter filename).world.bytes? (Export.target filename).2.1 =
        some (Utf8.encode text) := by
  obtain ⟨text, place, hcourse, hopen, hstore⟩ := Export.of_take_eq_none (of_written h).1
  obtain ⟨bytes, hbytes, -, hall⟩ :=
    World.exists_bytes?_store hopen (Export.endsWith_target filename) text
  rw [hstore] at hbytes hall
  exact ⟨text, hcourse, by rw [hbytes, hall rfl]⟩

end Graph

end IncludeTrace
