import IncludeTrace.Database.Session
import IncludeTrace.Proofs.Session.Flags
import IncludeTrace.Proofs.Table
import IncludeTrace.Proofs.World.Requests
import IncludeTrace.Session.Script
import IncludeTrace.World.Standard

/-!
# The flags of a database

An open database keeps one flag for each key, so that all spellings of a file share a flag and no other
file has it (`Workshop.keepsFlags`). A flag that could be read can be put back
(`Workshop.restores_of_ends`): therefore every course of every trace leaves all flags as they were.

A trace runs its compiler while the flag is on, whatever it was before. So every command that a trace
starts asks the compiler to report what it includes (`Workshop.invocations_move`).

`Workshop.traces_restore_flags` puts this together.
-/

namespace IncludeTrace

/-- A command **reports** includes if it ends in the flags for that of its driver's family. -/
def Invocation.Reports (i : Invocation) : Prop :=
  ∃ compiler words, i.command =
    compiler :: words ++ Command.reportFlags (Command.isMsvcDriver compiler)

/-- On the way from one world to another commands were started that all report includes, or none. -/
def World.StartsReports (w w' : World) : Prop :=
  ∃ started, w'.invocations = w.invocations ++ started ∧ ∀ i ∈ started, i.Reports

namespace World.StartsReports

theorem of_eq {w w' : World} (h : w'.invocations = w.invocations) : StartsReports w w' :=
  ⟨[], h.trans (List.append_nil _).symm, by simp⟩

theorem trans {w w' w'' : World} (h : StartsReports w w') (h' : StartsReports w' w'') :
    StartsReports w w'' := by
  obtain ⟨before, hbefore, hreports⟩ := h
  obtain ⟨started, hstarted, hreports'⟩ := h'
  refine ⟨before ++ started, by rw [hstarted, hbefore, List.append_assoc], fun i hi => ?_⟩
  exact (List.mem_append.mp hi).elim (hreports i) (hreports' i)

end World.StartsReports

theorem Command.reports_of_traceCommand? {arguments command : List Text}
    (h : traceCommand? arguments true = some command) :
    ∃ compiler words, command = compiler :: words ++ reportFlags (isMsvcDriver compiler) := by
  rw [traceCommand?] at h
  split at h
  · cases h
  · next compiler rest _ =>
    exact ⟨compiler, withoutOutput (isMsvcDriver compiler) false rest, (Option.some.inj h).symm⟩

namespace Database

variable {db : Database} {cwd path : Text}

/-- While its flag is on, the trace command of a file reports includes. -/
theorem reports_of_traceCommand {command : List Text} {directory : Text}
    (hon : (db.flags.get? (Path.key cwd path)).getD false = true)
    (h : (db.traceCommand cwd path).1 = .ok (command, directory)) (timeout : Number) :
    (⟨command, directory, timeout⟩ : Invocation).Reports := by
  rw [traceCommand] at h
  split at h
  · cases h
  · split at h
    · cases h
    · next words _ =>
      rw [hon] at h
      dsimp only at h
      split at h
      · cases h
      · next command' hcommand =>
        obtain ⟨rfl, -⟩ := Prod.mk.inj (Except.ok.inj h)
        exact Command.reports_of_traceCommand? hcommand

/-- **What a run leaves of the world**: all of it, or all but one compiler run, which was for the trace
command and is noted now. -/
theorem world_run_cases (db : Database) (path : Text) (w : World) :
    (db.run w path).world = w ∨ ∃ i : Invocation,
      (db.traceCommand w.cwd path).1 = .ok (i.command, i.directory) ∧
      (db.run w path).world = { w with runs := w.runs.tail, invocations := w.invocations ++ [i] } := by
  rw [run]
  split
  · exact .inl rfl
  · next command directory log hcommand =>
    dsimp only
    split
    · exact .inl rfl
    · obtain ⟨-, reason, hrun⟩ | ⟨-, hrun⟩ := World.run_cases w ⟨command, directory, db.timeout⟩
      · rw [hrun]
        exact .inl rfl
      · rw [hrun]
        exact .inr ⟨_, by rw [hcommand], rfl⟩

/-- A run of a trace command stays in its directory, and starts that command or none. -/
theorem run_starts (db : Database) (path : Text) (w : World) :
    (db.run w path).world.cwd = w.cwd ∧ ∃ started : List Invocation,
      (db.run w path).world.invocations = w.invocations ++ started ∧
        ∀ i ∈ started, (db.traceCommand w.cwd path).1 = .ok (i.command, i.directory) := by
  obtain hsame | ⟨i, hcommand, hworld⟩ := world_run_cases db path w
  · rw [hsame]
    exact ⟨rfl, [], (List.append_nil _).symm, by simp⟩
  · rw [hworld]
    exact ⟨rfl, [i], rfl, by simp [hcommand]⟩

end Database

namespace Workshop

open Trace Session

/-- The flags of a database: the key of a path that names one of its units, and the keys whose flag is
on. -/
def flags (w : Workshop) : FlagMap where
  file path :=
    match w.database.find w.world.cwd path with
    | .ok _ => .value (Path.key w.world.cwd path)
    | .error f => .failure f.message
  isOn key := (w.database.flags.get? key).getD false

theorem find_of_file {w : Workshop} {path key : Text} (h : w.flags.file path = .value key) :
    key = Path.key w.world.cwd path ∧ ∃ u, w.database.find w.world.cwd path = .ok u := by
  rw [flags] at h
  dsimp only at h
  split at h
  · next u hfind => exact ⟨(Outcome.value.inj h).symm, u, hfind⟩
  · cases h

/-- A database keeps its flags. -/
theorem keepsFlags : collaborators.KeepsFlags flags where
  reading path w := by
    simp only [collaborators, Database.flag, FlagMap.reading, flags]
    cases w.database.find w.world.cwd path <;> rfl
  set path on w := by
    refine ⟨on, ?_, fun _ => rfl⟩
    simp only [collaborators, Database.setFlag, FlagMap.put]
    cases hfind : w.database.find w.world.cwd path with
    | error f => simp [flags, hfind, bind, Except.bind]
    | ok u =>
      simp only [flags, hfind, bind, Except.bind, pure, Except.pure, FlagMap.mk.injEq]
      -- the flag is kept under the key, which all spellings of the file share
      refine ⟨rfl, funext fun key => ?_⟩
      rw [Table.get?_put, Function.update_apply]
      by_cases hkey : key = Path.key w.world.cwd path
      · simp [hkey]
      · simp [hkey, Ne.symm hkey]
  flag _ _ := rfl
  start _ _ := rfl
  collect path w := by
    have hcwd : (collaborators.collect path w).state.world.cwd = w.world.cwd :=
      (Database.run_starts w.database path w.world).1
    rw [flags, hcwd]
    rfl
  directories _ _ := rfl
  requests _ := rfl

variable {view : FileView} {marker path : Text} {t t' u : Trace Workshop} {m₀ : FlagMap}

/-- A flag that could be read can be put back. -/
theorem putsBack_of_flagsAre (h : t.stage.FlagsAre path m₀ (flags t.outside)) :
    PutsBack (setup view marker) path t := by
  intro before e hstage
  rw [hstage] at h
  obtain ⟨⟨on, hflags⟩, hread⟩ := h
  obtain ⟨key, hfile, -⟩ := FlagMap.file_of_reading hread
  obtain ⟨-, u, hfind⟩ := find_of_file (w := t.outside) (by rw [hflags, FlagMap.file_put, hfile])
  simp only [setup, collaborators, Database.setFlag, hfind]
  rfl

/-- **Run.** Along every course the flags are what they are to be. -/
theorem flagsAre_of_moves (hstage : t.stage = .reading)
    (h : Moves (setup view marker) path t u) :
    u.stage.FlagsAre path (flags t.outside) (flags u.outside) := by
  have hstart : t.stage.FlagsAre path (flags t.outside) (flags t.outside) := by
    rw [hstage]
    rfl
  exact h.preserves (P := fun v => v.stage.FlagsAre path (flags t.outside) (flags v.outside))
    (fun v v' hmove hv => flagsAre_move keepsFlags (putsBack_of_flagsAre hv) hmove hv) hstart

theorem restores_of_ends (hstage : t.stage = .reading) (h : Ends (setup view marker) path t t') :
    Restores (setup view marker) path t t' :=
  ⟨h, fun _ hu _ => putsBack_of_flagsAre (flagsAre_of_moves hstage hu)⟩

/-! ### The commands of a trace -/

/-- **Step.** Only collecting the output of a compiler touches the world. -/
theorem world_step (h : ∀ before, t.stage ≠ .collecting before) :
    (t.step (setup view marker) path).outside.world = t.outside.world := by
  have hset : ∀ on w, (collaborators.setFlag path on w).state.world = w.world := by
    intro on w
    simp only [collaborators]
    split <;> rfl
  cases hstage : t.stage with
  | reading => rw [(step_of_reading _ path hstage).2.1]; rfl
  | enabling before => rw [(step_of_enabling _ path hstage).2.1]; exact hset _ _
  | starting before => rw [(step_of_starting _ path hstage).2.1]; rfl
  | collecting before => exact absurd hstage (h before)
  | locating before output => rw [(step_of_locating _ path hstage).2.1]; rfl
  | merging before output directories => rw [(step_of_merging _ path hstage).2.1]
  | restoring before e => rw [(step_of_restoring _ path hstage).2.1]; exact hset _ _
  | finished e => rw [step_of_finished hstage]

/-- **Move.** A move of a trace starts no commands but such that report includes. -/
theorem invocations_move (hmove : Move (setup view marker) path t u)
    (h : t.stage.FlagsAre path m₀ (flags t.outside)) :
    t.outside.world.StartsReports u.outside.world := by
  cases hmove with
  | step =>
    by_cases hcollecting : ∃ before, t.stage = .collecting before
    · obtain ⟨before, hstage⟩ := hcollecting
      rw [hstage] at h
      obtain ⟨hflags, hread⟩ := h
      -- the compiler runs while the flag is on
      have hon : (flags t.outside).reading path = .value true := by
        rw [hflags, FlagMap.reading_put hread]
      obtain ⟨key, hfile, hon⟩ := FlagMap.file_of_reading hon
      obtain ⟨-, started, hworld, hstarted⟩ :=
        Database.run_starts t.outside.database path t.outside.world
      refine ⟨started, ?_, fun i hi => ?_⟩
      · rw [(step_of_collecting _ path hstage).2.1]
        exact hworld
      · rw [(find_of_file hfile).1] at hon
        exact Database.reports_of_traceCommand hon (hstarted i hi) i.timeout
    · refine .of_eq ?_
      rw [world_step fun before hstage => hcollecting ⟨before, hstage⟩]
  | refuse =>
    refine .of_eq ?_
    rw [refuseMeanwhile]
    split <;> rfl
  | breakOff => exact .of_eq rfl

/-- **Run.** All commands that a course starts report includes. -/
theorem invocations_moves (hstage : t.stage = .reading)
    (h : Moves (setup view marker) path t u) : t.outside.world.StartsReports u.outside.world := by
  induction h with
  | refl => exact .of_eq rfl
  | tail hmoves hmove ih =>
    exact ih.trans (invocations_move hmove (flagsAre_of_moves hstage hmoves))

theorem invocations_series {s s' : Session Workshop}
    (h : Series (Ends (setup view marker)) s s') :
    s.outside.world.StartsReports s'.outside.world := by
  induction h with
  | refl => exact .of_eq rfl
  | snoc _ _ ht ih => exact ih.trans (invocations_moves rfl ht.1)

/-- **Traces leave all flags as they were.**

* Collaborators that keep a flag map: after traces that restore their flags, however they ended, every
  path has the flag it had before, and the session is not busy.
* Any collaborators: a trace whose flag cannot be read makes the call to read it, and no other.
* A database: every trace restores its flag, and every command that traces start reports includes.

Courses are all ways in which calls and merges can end; the last part says that every trace of a
session takes one. -/
theorem traces_restore_flags :
    (∀ (σ : Type) (setup : Setup σ) (flags : σ → FlagMap) (s s' : Session σ),
      setup.collaborators.KeepsFlags flags → s.busy = false → Series (Restores setup) s s' →
        s'.busy = false ∧ ∀ q, (setup.collaborators.flag q s'.outside).outcome =
          (setup.collaborators.flag q s.outside).outcome) ∧
    (∀ (σ : Type) (setup : Setup σ) (path : Text) (s : Session (σ × List Call))
      (t : Trace (σ × List Call)),
      (∀ on, (setup.collaborators.flag path s.outside.1).outcome ≠ .value on) →
        Ends setup.recorded path s.begin t → t.outside.2 = s.outside.2 ++ [.flag path]) ∧
    (∀ (view : FileView) (marker : Text) (s s' : Session Workshop), s.busy = false →
      Series (Ends (setup view marker)) s s' →
        s'.busy = false ∧
        (∀ q, (collaborators.flag q s'.outside).outcome =
          (collaborators.flag q s.outside).outcome) ∧
        ∃ started, s'.outside.world.invocations = s.outside.world.invocations ++ started ∧
          ∀ i ∈ started, i.Reports) ∧
    ∀ (σ : Type) (setup : Setup σ) (path : Text) (s : Session σ) (r : Response σ),
      s.busy = false → Concludes setup path s r →
        ∃ t, Ends setup path s.begin t ∧ r.session = left t ∧ r.answer = answerOf path t := by
  have hkept : ∀ (σ : Type) (setup : Setup σ) (flags : σ → FlagMap) (s s' : Session σ),
      setup.collaborators.KeepsFlags flags → Series (Restores setup) s s' →
        ∀ q, (setup.collaborators.flag q s'.outside).outcome =
          (setup.collaborators.flag q s.outside).outcome := by
    intro σ setup flags s s' hc h q
    rw [hc.reading, hc.reading, flags_of_series hc h]
  refine ⟨fun σ setup flags s s' hc hfree h => ⟨h.busy hfree, hkept σ setup flags s s' hc h⟩,
    fun σ setup path s t hread h => ?_, fun view marker s s' hfree h => ?_,
    fun σ setup path s r hfree h => ends_of_concludes hfree h⟩
  · obtain ⟨hmoves, e, hend⟩ := h
    obtain ⟨hstage, -⟩ | ⟨e', -, hcalls⟩ := calls_of_unread hread hmoves rfl rfl
    · cases hstage.symm.trans hend
    · exact hcalls
  · have hrestores := h.mono fun path s t ht => restores_of_ends (t := s.begin) rfl ht
    exact ⟨h.busy hfree, hkept _ _ flags s s' keepsFlags hrestores, invocations_series h⟩

/-- The compiler run is interrupted. The flag of the file is off again under another spelling, and the
command asked for a report. -/
theorem traces_restore_flags_interrupted :
    let unit : TranslationUnit := ⟨[("command", .text "ccache clang -c x.c")], "x.c", "/b"⟩
    let w : Workshop := ⟨⟨"/b", "/b/compile_commands.json", .whole 300, [("/b/x.c", unit)], []⟩,
      ⟨"/b", [], [], ["clang"], [.interrupted], [], [], [], [], .standard⟩⟩
    let unread : Script := ⟨[], [], [], [("get", ['z'])], [], []⟩
    let s := Session.new ⟨[]⟩ w
    let r := s.trace (setup w.world.view ['>']) "/b/./X.c"
    r.answer = .interrupted ∧ r.session.busy = false ∧
      (∀ q, (collaborators.flag q r.session.outside).outcome = (collaborators.flag q w).outcome) ∧
      (∃ i, r.session.outside.world.invocations = [i] ∧ i.Reports) ∧
      ∃ t, t.outside.2 = [Call.flag ['a']] ∧
        Ends (Setup.recorded ⟨Script.collaborators, w.world.view, ['>']⟩) ['a']
          (Session.new ⟨[]⟩ (unread, [])).begin t := by
  intro unit w unread s r
  obtain ⟨hflags, hunread, hdatabase, hcourse⟩ := traces_restore_flags
  obtain ⟨t, ht, hsession, -⟩ := hcourse _ (setup w.world.view ['>']) "/b/./X.c" s r rfl .trace
  have hseries : Series (Ends (setup w.world.view ['>'])) s r.session := by
    rw [show r.session = left t from hsession]
    exact (Series.refl s).snoc rfl ht
  have hrestores := hseries.mono fun path s t ht => restores_of_ends (t := s.begin) rfl ht
  obtain ⟨hfree, hkept⟩ := hflags _ _ flags s r.session keepsFlags rfl hrestores
  obtain ⟨-, -, started, hworld, hreports⟩ := hdatabase _ _ s r.session rfl hseries
  have hone : r.session.outside.world.invocations.length = 1 := by decide +kernel
  obtain ⟨i, hi⟩ := List.length_eq_one_iff.mp hone
  rw [hi] at hworld
  obtain rfl : started = [i] := hworld.symm
  have hfails : ∀ on, (Script.collaborators.flag ['a'] unread).outcome ≠ .value on := by
    decide +kernel
  refine ⟨by decide +kernel, hfree, hkept, ⟨i, hi, hreports i (List.mem_singleton_self i)⟩, _, ?_,
    ends_final _ _ _⟩
  exact hunread _ ⟨Script.collaborators, w.world.view, ['>']⟩ ['a'] (Session.new ⟨[]⟩ (unread, []))
    _ hfails (ends_final _ _ _)

end Workshop

end IncludeTrace
