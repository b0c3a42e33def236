import IncludeTrace.Proofs.Export.Basic
import IncludeTrace.World.Standard

/-!
# What an export leaves alone

An export changes nothing but the file that it chose. One that fails should leave this file alone as
well, and so it is as long as it fails before the file is open. What goes wrong behind that is too late:
the file has lost what it held. `Graph.export_spares_files` says what can be too late.

A host need not be in the way (`Host.TakesEveryText`). Then one thing is left with the library as it is
known (`Library.OpensFirst`): the writer for DOT is looked for when the file is open, and it may be
missing (`Graph.export_empties_file`). Where standard output does not take every text, a failure can
even come when the document is complete (`Graph.export_unannounced`).
-/

namespace IncludeTrace

/-- What is written on the host is stored, and what is printed appears. -/
structure Host.TakesEveryText (host : Host) : Prop where
  stores : ∀ place text, host.spill? place text = none
  prints : ∀ text, host.unprintable? text = none

/-- What is known of the failures of a library: it does not fail with an open file, except where the
writer for DOT is missing. The file of a DOT document is opened before the writer is looked for. -/
structure Library.OpensFirst (library : Library) : Prop where
  graphMl : ∀ m text f, library.graphMl m = .opened text f → f = none
  gexf : ∀ date m text f, library.gexf date m = .opened text f → f = none
  dot : ∀ m text f, library.dot true m = .opened text f → f = none
  late : ∀ m, library.dot false m = .opened [] (some .missing)

theorem Host.TakesEveryText.store_eq_none {w : World} (h : w.host.TakesEveryText) (place text : Text) :
    (w.store place text).2 = none := by
  rw [World.store, h.stores]

theorem Host.standard_takesEveryText : Host.standard.TakesEveryText where
  stores _ _ := rfl
  prints _ := rfl

theorem Library.standard_opensFirst : Library.standard.OpensFirst where
  graphMl _ _ _ h := (Course.opened.inj h).2.symm
  gexf _ _ _ _ h := (Course.opened.inj h).2.symm
  dot _ _ _ h := (Course.opened.inj h).2.symm
  late _ := rfl

namespace Export

/-- A course changes nothing but the file at its place. -/
theorem agreesBut_take (w : World) (name : Text) (c : Course) :
    w.AgreesBut (take w name c).1 (w.locate name) := by
  obtain ⟨-, f, htaken⟩ | ⟨text, f, place, -, hopen, htaken⟩ := take_cases w name c
  · rw [htaken]
    exact .refl w _
  · obtain ⟨-, -, -, -, -, rfl⟩ := World.openPlace?_eq_ok_iff.mp hopen
    rw [htaken]
    exact w.agreesBut_store _ text

/-- What is read at another place is what was read there before a course was taken. -/
theorem read_take {w : World} {name r : Text} {c : Course} (hr : w.locate r ≠ w.locate name) :
    (take w name c).1.read r = w.read r := by
  obtain ⟨-, f, htaken⟩ | ⟨text, f, place, -, hopen, htaken⟩ := take_cases w name c
  · rw [htaken]
  · obtain ⟨-, -, -, -, -, rfl⟩ := World.openPlace?_eq_ok_iff.mp hopen
    rw [htaken]
    exact World.read_store hopen text hr

/-- Where the library opens files first, a course fails with an open file only if it is one for DOT and
the writer is missing. -/
theorem eq_none_of_course {library : Library} (h : library.OpensFirst) {date : Text} {dotWriter : Bool}
    {m : Multigraph} {format : Format} (hwriter : format = .dot → dotWriter = true) {text : Text}
    {f : Option Failure} (hcourse : course library date dotWriter m format = .opened text f) :
    f = none := by
  cases format with
  | graphMl => exact h.graphMl m text f hcourse
  | dot => exact h.dot m text f (hwriter rfl ▸ hcourse)
  | gexf => exact h.gexf date m text f hcourse
  | nodeLink =>
    cases hvalue : library.nodeLink m with
    | error failure => simp [course, hvalue] at hcourse
    | ok v =>
      rw [course, hvalue] at hcourse
      exact (Course.opened.inj hcourse).2.symm

/-- What is concluded is no success if the course failed or the success cannot be announced. -/
theorem written_conclude_eq_false_iff {host : Host} {p : Palette} {name : Text} {before : List Emission}
    {taken : World × Option Failure} : (conclude host p name before taken).written = false ↔
      taken.2.isSome = true ∨ (host.unprintable? (p.successLine false (success name))).isSome = true := by
  rcases taken with ⟨w', f | f⟩
  · simp only [conclude, announce]
    cases host.unprintable? (p.successLine false (success name)) <;> simp
  · simp [conclude]

end Export

namespace Graph

variable {g : Graph} {w : World} {p : Palette} {dotWriter : Bool} {filename : Text}

/-- An export fails if its course ends in a failure or its success cannot be announced. -/
theorem written_eq_false_iff : (g.exportTo w p dotWriter filename).written = false ↔
    (Export.take w (Export.target filename).2.1 (g.exportCourse w dotWriter filename)).2.isSome = true ∨
      (w.host.unprintable?
        (p.successLine false (Export.success (Export.target filename).2.1))).isSome = true :=
  Export.written_conclude_eq_false_iff

/-- **A failure is early or late.** An export that fails without having opened the file leaves the world
as it was. Otherwise the course failed behind the opening, or not all of the text was stored, or the
success could not be announced; then the file holds a beginning of the text. -/
theorem of_not_written (h : (g.exportTo w p dotWriter filename).written = false) :
    let outcome := g.exportTo w p dotWriter filename
    let name := (Export.target filename).2.1
    let course := g.exportCourse w dotWriter filename
    ((∃ f, course = .closed f) ∨ ∃ refusal, w.openPlace? name = .error refusal) ∧ outcome.world = w ∨
      ∃ text f place, course = .opened text f ∧ w.openPlace? name = .ok place ∧
        (f.isSome ∨ (w.store place text).2.isSome ∨
          (w.host.unprintable? (p.successLine false (Export.success name))).isSome) ∧
        ∃ bytes, outcome.world.bytes? name = some bytes ∧ bytes <+: Utf8.encode text := by
  intro outcome name course
  have hworld : outcome.world = (Export.take w name course).1 := world_exportTo ..
  obtain ⟨hearly, f, htaken⟩ | ⟨text, f, place, hcourse, hopen, htaken⟩ := Export.take_cases w name course
  · exact .inl ⟨hearly, by rw [hworld, htaken]⟩
  · obtain ⟨bytes, hbytes, hprefix, -⟩ :=
      World.exists_bytes?_store hopen (Export.endsWith_target filename) text
    refine .inr ⟨text, f, place, hcourse, hopen, ?_, bytes, by rw [hworld, htaken]; exact hbytes, hprefix⟩
    rcases written_eq_false_iff.mp h with hfailed | hprint
    · rw [htaken] at hfailed
      cases hstored : (w.store place text).2 with
      | some reason => exact .inr (.inl rfl)
      | none =>
        rw [hstored] at hfailed
        exact .inl hfailed
    · exact .inr (.inr hprint)

/-- Where the host takes every text, an export fails late only if it is one to DOT and the writer is
missing. -/
theorem world_eq_of_not_written (hhost : w.host.TakesEveryText) (hlibrary : w.host.library.OpensFirst)
    (hwriter : (Export.target filename).1 = .dot → dotWriter = true)
    (h : (g.exportTo w p dotWriter filename).written = false) :
    (g.exportTo w p dotWriter filename).world = w := by
  obtain ⟨-, hsame⟩ | ⟨text, f, place, hcourse, -, hlate, -⟩ := of_not_written h
  · exact hsame
  · have hnone : f = none := Export.eq_none_of_course hlibrary hwriter hcourse
    rw [hnone, hhost.store_eq_none, hhost.prints] at hlate
    simp at hlate

/-- Without its writer DOT cannot be exported, and a file that could be opened is empty. -/
theorem not_written_of_missing (hhost : w.host.TakesEveryText) (hlibrary : w.host.library.OpensFirst)
    (hdot : (Export.target filename).1 = .dot) :
    (g.exportTo w p false filename).written = false ∧
      ∀ place, w.openPlace? (Export.target filename).2.1 = .ok place →
        (g.exportTo w p false filename).world.bytes? (Export.target filename).2.1 = some [] := by
  have hcourse : g.exportCourse w false filename = .opened [] (some .missing) := by
    rw [exportCourse, hdot]
    exact hlibrary.late g.multigraph
  obtain ⟨hearly, f, htaken⟩ | ⟨text, f, place, hopened, hopen, htaken⟩ :=
    Export.take_cases w (Export.target filename).2.1 (g.exportCourse w false filename)
  · obtain ⟨f, hclosed⟩ | ⟨refusal, hopen⟩ := hearly
    · cases hclosed.symm.trans hcourse
    · refine ⟨written_eq_false_iff.mpr (.inl (by rw [htaken]; rfl)), fun place hplace => ?_⟩
      cases hopen.symm.trans hplace
  · obtain ⟨rfl, rfl⟩ := Course.opened.inj (hcourse.symm.trans hopened)
    obtain ⟨bytes, hbytes, hprefix, -⟩ :=
      World.exists_bytes?_store hopen (Export.endsWith_target filename) []
    refine ⟨written_eq_false_iff.mpr (.inl ?_), fun _ _ => ?_⟩
    · rw [htaken, hhost.store_eq_none]
      rfl
    · rw [world_exportTo, htaken, hbytes, List.prefix_nil.mp hprefix]

/-- **An export spares the files** it does not speak of.

It changes nothing but the file that it chose, and what is read at any other place is what was read
there before. If it succeeds, its last words name this file, and the file holds all of the text that was
written.

If it fails and the file was not opened, because the library failed before or the system refused to, the
world is the same. If it fails later, then the library failed with the file open, or not all of the text
was stored, or the success could not be announced; and the file holds a beginning of the text.

Where the host takes every text and the library opens files first, a failure leaves the world as it was,
if the format is not DOT or the writer for it is there. But without its writer DOT always fails, and the
file is empty if it could be opened. -/
theorem export_spares_files (g : Graph) (w : World) (p : Palette) (dotWriter : Bool) (filename : Text) :
    let outcome := g.exportTo w p dotWriter filename
    let format := (Export.target filename).1
    let name := (Export.target filename).2.1
    let course := g.exportCourse w dotWriter filename
    let line := p.successLine false ("Exported include graph to " ++ name)
    w.AgreesBut outcome.world (w.locate name) ∧
      (∀ r, w.locate r ≠ w.locate name → outcome.world.read r = w.read r) ∧
      (outcome.written = true → outcome.emissions.getLast? = some (.out line) ∧
        ∃ text, course = .opened text none ∧ outcome.world.bytes? name = some (Utf8.encode text)) ∧
      (outcome.written = false →
        ((∃ f, course = .closed f) ∨ ∃ refusal, w.openPlace? name = .error refusal) ∧ outcome.world = w ∨
        ∃ text f place, course = .opened text f ∧ w.openPlace? name = .ok place ∧
          (f.isSome ∨ (w.store place text).2.isSome ∨ (w.host.unprintable? line).isSome) ∧
          ∃ bytes, outcome.world.bytes? name = some bytes ∧ bytes <+: Utf8.encode text) ∧
      (w.host.TakesEveryText → w.host.library.OpensFirst →
        (outcome.written = false → (format = .dot → dotWriter = true) → outcome.world = w) ∧
        (format = .dot → dotWriter = false → outcome.written = false ∧
          ∀ place, w.openPlace? name = .ok place → outcome.world.bytes? name = some [])) := by
  intro outcome format name course line
  have hworld : outcome.world = (Export.take w name course).1 := world_exportTo ..
  refine ⟨?_, fun r hr => ?_, fun hwritten => ⟨(of_written hwritten).2, exists_text_of_written hwritten⟩,
    of_not_written, fun hhost hlibrary => ⟨fun hwritten hwriter => ?_, fun hdot hmissing => ?_⟩⟩
  · rw [hworld]
    exact Export.agreesBut_take w name course
  · rw [hworld]
    exact Export.read_take hr
  · exact world_eq_of_not_written hhost hlibrary hwriter hwritten
  · subst hmissing
    exact not_written_of_missing hhost hlibrary hdot

/-- A name whose extension is no format's, next to a file of this name, and a name in a directory that
does not exist. -/
theorem export_spares_files_fallback :
    let w : World := ⟨"/work", [("/work/x.xyz", Utf8.encode "old")], [], [], [], [], [], [], [], .standard⟩
    let g : Graph := ⟨[⟨"/a.h", "/a.h", []⟩]⟩
    let done := g.exportTo w .plain false "x.xyz"
    let failed := g.exportTo w .plain false "gone/x.json"
    done.written = true ∧
      done.emissions.getLast? = some (.out "Exported include graph to x.xyz.graphml\n") ∧
      (∃ text, g.exportCourse w false "x.xyz" = .opened text none ∧
        done.world.bytes? "x.xyz.graphml" = some (Utf8.encode text)) ∧
      done.world.read "x.xyz" = .ok (Utf8.encode "old") ∧
      failed.written = false ∧ failed.world = w := by
  intro w g done failed
  have hwritten : done.written = true := by decide +kernel
  have hfailed : failed.written = false := by decide +kernel
  obtain ⟨-, hothers, hdone, -, -⟩ := export_spares_files g w .plain false "x.xyz"
  obtain ⟨-, -, -, -, hspared⟩ := export_spares_files g w .plain false "gone/x.json"
  obtain ⟨hwords, hbytes⟩ := hdone hwritten
  have hread := hothers "x.xyz" (by decide +kernel)
  have hsame :=
    (hspared Host.standard_takesEveryText Library.standard_opensFirst).1 hfailed (by decide +kernel)
  exact ⟨hwritten, hwords, hbytes, hread.trans (by rfl), hfailed, hsame⟩

/-- **What a file held is lost** when it is chosen for an export to DOT and the writer is missing. -/
theorem export_empties_file :
    let w : World := ⟨"/work", [("/work/x.dot", Utf8.encode "old")], [], [], [], [], [], [], [], .standard⟩
    let g : Graph := ⟨[⟨"/a.h", "/a.h", []⟩]⟩
    let outcome := g.exportTo w .plain false "x.dot"
    outcome.written = false ∧ w.bytes? "x.dot" = some (Utf8.encode "old") ∧
      outcome.world.bytes? "x.dot" = some [] := by
  decide +kernel

/-- It is lost as well where the name of the file cannot be printed: the document is complete then, and
yet the export fails. -/
theorem export_unannounced :
    let host : Host := { Host.standard with
      unprintable? := fun t => if t.all (fun c => c.toNat < 0x80) then none else some "not ASCII" }
    let w : World := ⟨"/work", [("/work/ä.json", Utf8.encode "old")], [], [], [], [], [], [], [], host⟩
    let outcome := Graph.exportTo ⟨[]⟩ w .plain true "ä.json"
    outcome.written = false ∧ w.bytes? "ä.json" = some (Utf8.encode "old") ∧
      outcome.world.bytes? "ä.json" =
        some (Utf8.encode (NodeLink.value "edges" (Graph.multigraph ⟨[]⟩)).renderIndented) := by
  decide +kernel

end Graph

end IncludeTrace
