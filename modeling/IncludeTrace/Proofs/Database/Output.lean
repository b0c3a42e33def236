import IncludeTrace.Proofs.Database.Asking
import IncludeTrace.Proofs.Transcript.Written
import IncludeTrace.World.Standard

/-!
# The output of a trace command

A compiler prints on two outputs, and a trace command gives one text: both outputs are decoded, their
line ends are written as line feeds, and the second output is put behind the first one, with a line feed
between them unless the first one ends in a line end or is empty. `Database.run_reports` says that the
trace lines of this text are those of the first output and behind them those of the second.

The texts are taken apart into lines for this, each with its line end (`Text.exists_written`). If there
is no line end at the end of the first text, its last line gets one; and if there is, the last line is
empty, and it is lost in front of the second text (`Text.last_eq_nil`). No marker is on it. Line ends
may fuse on the way, a carriage return at the end of one text with a line feed at the beginning of the
next, and this takes nothing but empty lines either (`TraceLine.ofText_written`).
-/

namespace IncludeTrace

namespace TraceLine

variable {marker : Text}

theorem ofText_unifyLines (marker t : Text) : ofText marker t.unifyLines = ofText marker t := by
  rw [ofText, ofText, Text.lines_unifyLines]

theorem ofLines_append (marker : Text) (ls ls' : List Text) :
    ofLines marker (ls ++ ls') = ofLines marker ls ++ ofLines marker ls' :=
  List.filterMap_append

/-- An empty line reports nothing. -/
theorem ofLines_append_nil (hm : marker ≠ []) (ls : List Text) :
    ofLines marker (ls ++ [[]]) = ofLines marker ls := by
  have hnil : ofLine? marker [] = none := ofLine?_eq_none_iff.mpr (by simpa using hm)
  rw [ofLines_append, ofLines, ofLines, List.filterMap_cons_none hnil, List.filterMap_nil,
    List.append_nil]

end TraceLine

namespace Database

open Text (IsLine)
open TraceLine (ofText ofLines)

variable {marker : Text}

/-- **Joined outputs report what the first output reports, and then what the second one does.** -/
theorem ofText_joinOutputs (hm : marker ≠ []) (out err : Text) :
    ofText marker (joinOutputs out err) = ofText marker out ++ ofText marker err := by
  obtain ⟨body, last, rfl, hlines, hwhole⟩ := Text.exists_written out
  obtain ⟨body', last', rfl, hlines', hwhole'⟩ := Text.exists_written err
  rw [← hlines] at hwhole
  rw [← hlines'] at hwhole'
  rw [TraceLine.ofText_written hm hwhole, TraceLine.ofText_written hm hwhole', joinOutputs]
  split
  · next hended =>
    have hnil : last = [] := by
      simp only [Bool.or_eq_true, or_assoc] at hended
      exact Text.last_eq_nil (hwhole last (by simp)) hended
    subst hnil
    have hboth : ∀ l ∈ (body ++ body').map Prod.fst ++ [last'], IsLine l := by
      rw [List.map_append, List.append_assoc]
      exact List.forall_mem_append.mpr ⟨fun l hl => hwhole l (List.mem_append_left _ hl), hwhole'⟩
    rw [Text.written_append, TraceLine.ofText_written hm hboth, List.map_append, List.append_assoc,
      TraceLine.ofLines_append, TraceLine.ofLines_append_nil hm]
  · have hboth : ∀ l ∈ (body ++ (last, .lf) :: body').map Prod.fst ++ [last'], IsLine l := by
      rw [List.map_append, List.map_cons, List.append_assoc, List.cons_append, List.append_cons]
      exact List.forall_mem_append.mpr ⟨hwhole, hwhole'⟩
    rw [Text.written_append_lf, TraceLine.ofText_written hm hboth, List.map_append, List.map_cons,
      List.append_assoc, List.cons_append, List.append_cons, TraceLine.ofLines_append]

/-- **A run gives a text** just if there is a trace command whose compiler is there, runs and exits; the
text is made of its outputs, whatever it exits with. -/
theorem run_eq_value_iff {db : Database} {w : World} {path text : Text} :
    (db.run w path).outcome = .value text ↔ ∃ command directory out err code,
      (db.traceCommand w.cwd path).1 = .ok (command, directory) ∧
      w.hasProgram (command.headD []) = true ∧
      (w.run ⟨command, directory, db.timeout⟩).map Prod.fst = .ok (.exited out err code) ∧
      text = joinOutputs (Utf8.lossy out).unifyLines (Utf8.lossy err).unifyLines := by
  simp only [World.run_eq_ok_iff]
  constructor
  · intro h
    rcases htrace : (db.traceCommand w.cwd path).1 with f | ⟨command, directory⟩
    · rw [outcome_run_of_error htrace] at h
      cases h
    · cases hprogram : w.hasProgram (command.headD []) with
      | false =>
        rw [outcome_run_of_missing htrace hprogram] at h
        cases h
      | true =>
        obtain ⟨-, reason, hrun⟩ | ⟨htakes, hrun⟩ := outcome_run_cases htrace hprogram
        · cases hrun.symm.trans h
        · rw [hrun] at h
          cases hnext : w.nextRun with
          | exited out err code =>
            rw [hnext] at h
            exact ⟨command, directory, out, err, code, rfl, hprogram, ⟨htakes, rfl⟩,
              (Outcome.value.inj h).symm⟩
          | timedOut | refused | failed | interrupted =>
            rw [hnext] at h
            cases h
  · rintro ⟨command, directory, out, err, code, htrace, hprogram, ⟨htakes, hnext⟩, rfl⟩
    obtain ⟨hnot, -⟩ | ⟨-, hrun⟩ := outcome_run_cases htrace hprogram
    · cases htakes.symm.trans hnot
    · rw [hrun, hnext]
      rfl

/-- **A trace command loses no trace lines of the compiler, and makes none.**

Where two outputs are joined, whatever texts they are and however their lines end, the trace lines are
those of the first one and behind them those of the second one. So if the compiler of a file runs and
exits, no matter with which code, then a text is given, and its trace lines are those of the two decoded
outputs; and no text is given otherwise. -/
theorem run_reports (marker : Text) (hm : marker ≠ []) :
    (∀ out err : Text,
      ofText marker (joinOutputs out err) = ofText marker out ++ ofText marker err) ∧
    ∀ (db : Database) (w : World) (path : Text),
      (∀ (command : List Text) (directory : Text) (out err : List UInt8) (code : Int),
        (db.traceCommand w.cwd path).1 = .ok (command, directory) →
        w.hasProgram (command.headD []) = true →
        (w.run ⟨command, directory, db.timeout⟩).map Prod.fst = .ok (.exited out err code) →
        ∃ text, (db.run w path).outcome = .value text ∧
          ofText marker text = ofText marker (Utf8.lossy out) ++ ofText marker (Utf8.lossy err)) ∧
      ∀ text, (db.run w path).outcome = .value text →
        ∃ (command : List Text) (directory : Text) (out err : List UInt8) (code : Int),
          (db.traceCommand w.cwd path).1 = .ok (command, directory) ∧
          (w.run ⟨command, directory, db.timeout⟩).map Prod.fst = .ok (.exited out err code) ∧
          ofText marker text = ofText marker (Utf8.lossy out) ++ ofText marker (Utf8.lossy err) := by
  have hdecoded : ∀ out err : List UInt8,
      ofText marker (joinOutputs (Utf8.lossy out).unifyLines (Utf8.lossy err).unifyLines) =
        ofText marker (Utf8.lossy out) ++ ofText marker (Utf8.lossy err) := by
    intro out err
    rw [ofText_joinOutputs hm, TraceLine.ofText_unifyLines, TraceLine.ofText_unifyLines]
  refine ⟨ofText_joinOutputs hm, fun db w path => ⟨?_, fun text htext => ?_⟩⟩
  · intro command directory out err code htrace hprogram hrun
    exact ⟨_, run_eq_value_iff.mpr ⟨command, directory, out, err, code, htrace, hprogram, hrun, rfl⟩,
      hdecoded out err⟩
  · obtain ⟨command, directory, out, err, code, htrace, -, hrun, rfl⟩ := run_eq_value_iff.mp htext
    exact ⟨command, directory, out, err, code, htrace, hrun, hdecoded out err⟩

/-- Outputs whose line ends fuse, and a compiler that fails: its first output does not end in a line
end, and the second one begins with one. -/
theorem run_reports_seam :
    let report : Text := "Note: including file: "
    let document : Text := "[\x7b\"file\": \"a.cpp\", \"command\": \"cc -c a.cpp\"\x7d]"
    let out : List UInt8 := Utf8.encode (report ++ ['a', '\r', '\n'] ++ report ++ [' ', 'b'])
    let err : List UInt8 := Utf8.encode (['\n', 'x', '\r'] ++ report ++ ['c'])
    let w : World := ⟨"/w", [("/b/compile_commands.json", Utf8.encode document)], [], ["cc"],
      [.exited out err 1], [], [], [], [], .standard⟩
    ofText report (joinOutputs (report ++ ['a', '\r']) ('\n' :: report ++ ['b'])) =
        [⟨0, ['a']⟩, ⟨0, ['b']⟩] ∧
      ∃ db log text, openIn w "/b" standardTimeout = (.ok db, log) ∧
        (db.run w "/b/a.cpp").outcome = .value text ∧
        ofText report text = [⟨0, ['a']⟩, ⟨1, ['b']⟩, ⟨0, ['c']⟩] := by
  intro report document out err w
  obtain ⟨hjoined, hruns⟩ := run_reports report (by decide +kernel)
  have hopened : (openIn w "/b" standardTimeout).1.toOption.map
      (fun db => (db.traceCommand w.cwd "/b/a.cpp").1.toOption) =
      some (some (["cc".toList, "a.cpp".toList], "/b".toList)) := by decide +kernel
  obtain ⟨db, log, hdb, htrace⟩ := exists_openIn_eq hopened
  have htrace : (db.traceCommand w.cwd "/b/a.cpp").1 = .ok (["cc".toList, "a.cpp".toList], "/b".toList) := by
    cases h : (db.traceCommand w.cwd "/b/a.cpp").1 with
    | error f =>
      rw [h] at htrace
      cases htrace
    | ok made =>
      rw [h] at htrace
      exact congrArg Except.ok (Option.some.inj htrace)
  obtain ⟨text, htext, hreports⟩ :=
    (hruns db w "/b/a.cpp").1 _ _ out err 1 htrace (by decide +kernel) rfl
  refine ⟨(hjoined _ _).trans ?_, db, log, text, hdb, htext, hreports.trans ?_⟩
  · decide +kernel
  · decide +kernel

end Database

end IncludeTrace
